/-
The guards of the SQL endpoint (`runtime/utils/sql.py`): `enforce_read_only_sql` refuses texts whose tree has a node of a
writing kind, `enforce_table_allowlist` refuses texts whose tables are not listed. sqlglot's parser is a parameter.

Main results: `readOnly_iff`, `allowlist_iff`.
-/
import Langbridge.Runtime.SqlTree

namespace Langbridge.Runtime.SqlGuards

open Core List PyText

/-! ## Parsing -/

/-- sqlglot: a text in a dialect gives its statements (`None` where there is none between two semicolons) or a
`ParseError`; a text whose tokens cannot be read raises another exception and goes no further -/
structure SqlParser where
  parse : String → String → Except String (List (Option SqlTree))

def dialectAliases : List (String × String) :=
  [("tsql", "tsql"), ("sqlserver", "tsql"), ("mssql", "tsql"), ("postgres", "postgres"), ("postgresql", "postgres"),
    ("mysql", "mysql"), ("snowflake", "snowflake"), ("redshift", "redshift"), ("bigquery", "bigquery"),
    ("oracle", "oracle"), ("sqlite", "sqlite"), ("trino", "trino")]

section Guards

variable [PyText]

/-- `normalize_sql_dialect` with its default -/
def normalizeSqlDialect : Option String → String
  | none => "tsql"
  | some dialect =>
    if norm dialect = "" then "tsql"
    else (dialectAliases.lookup (norm dialect)).getD (norm dialect)

variable (P : SqlParser)

/-- `sqlglot.parse_one`: the first statement -/
def parseOne (query dialect : String) : Except String SqlTree :=
  match P.parse query dialect with
  | .error e => .error e
  | .ok (some t :: _) => .ok t
  | .ok _ => .error ("No expression was parsed from '" ++ query ++ "'")

/-! ## Read-only texts -/

/-- `_FIRST_TOKEN_PATTERN`, in lower case -/
def firstToken (query : String) : String :=
  lower (String.ofList ((query.toList.dropWhile isSpace).takeWhile fun c => c.isAlpha || c = '_'))

/-- `forbidden_nodes` -/
def forbidden : SqlNode → Bool
  | .insert | .update | .delete | .drop | .alter | .create | .merge | .truncateTable => true
  | _ => false

def enforceReadOnlySql (query : String) (allowDml : Bool) (dialect : Option String) : Except String Unit :=
  if allowDml then .ok ()
  else
    match P.parse query (normalizeSqlDialect dialect) with
    | .error e => .error ("SQL parse failed: " ++ e)
    | .ok [] => .error "Query is empty."
    | .ok [statement] =>
      if firstToken query ∉ ["select", "with"] then .error "Workspace policy only allows SELECT statements."
      else
        match statement with
        | none => .error "'NoneType' object has no attribute 'find_all'"
        | some t => if t.labels.any forbidden then .error "Workspace policy only allows SELECT statements." else .ok ()
    | .ok _ => .error "Only a single SQL statement is allowed."

/-- a node that creates, alters, drops, inserts, updates, deletes, merges or selects into a table -/
def writes : SqlNode → Bool
  | .create | .alter | .drop | .truncateTable | .insert | .update | .delete | .merge | .into => true
  | _ => false

/-- no node of any statement of a text writes -/
def WritesNothing (query : String) (dialect : Option String) : Prop :=
  ∀ statements, P.parse query (normalizeSqlDialect dialect) = .ok statements →
    ∀ t, some t ∈ statements → ∀ l ∈ t.labels, writes l = false

variable {P}

/-- an accepted text is one statement without a forbidden node -/
theorem enforceReadOnlySql_ok {query : String} {dialect : Option String}
    (h : enforceReadOnlySql P query false dialect = .ok ()) :
    ∃ t, P.parse query (normalizeSqlDialect dialect) = .ok [some t] ∧
      firstToken query ∈ ["select", "with"] ∧ ∀ l ∈ t.labels, forbidden l = false := by
  unfold enforceReadOnlySql at h
  rw [if_neg Bool.false_ne_true] at h
  split at h
  · cases h
  · cases h
  · rename_i statement hparse
    split_ifs at h with htoken
    cases statement with
    | none => cases h
    | some t =>
      simp only at h
      split_ifs at h with hany
      refine ⟨t, hparse, htoken, fun l hl => ?_⟩
      by_contra hl'
      rw [Bool.not_eq_false] at hl'
      exact hany (any_eq_true.2 ⟨l, hl, hl'⟩)
  · cases h

omit [PyText] in
theorem writes_of_not_forbidden {l : SqlNode} (h : forbidden l = false) : writes l = true ↔ l = .into := by
  cases l <;> simp_all [forbidden, writes]

/-- **Reading only.** A text that is accepted writes nothing if and only if no node of it selects into a table. -/
theorem readOnly_iff (P : SqlParser) (query : String) (dialect : Option String)
    (h : enforceReadOnlySql P query false dialect = .ok ()) :
    WritesNothing P query dialect ↔
      ∀ statements, P.parse query (normalizeSqlDialect dialect) = .ok statements →
        ∀ t, some t ∈ statements → SqlNode.into ∉ t.labels := by
  obtain ⟨t, hparse, _, hforbidden⟩ := enforceReadOnlySql_ok h
  constructor
  · intro hnothing statements hstatements t ht hinto
    have hwrites := hnothing statements hstatements t ht _ hinto
    cases hwrites
  · intro hinto statements hstatements u hu l hl
    rw [hparse] at hstatements
    cases hstatements
    obtain rfl := Option.some.inj (mem_singleton.1 hu)
    by_contra hwrites
    rw [Bool.not_eq_false, writes_of_not_forbidden (hforbidden l hl)] at hwrites
    rw [hwrites] at hl
    exact hinto _ hparse u mem_cons_self hl

/-! ## Listed tables -/

/-- the key of a table in `extract_table_references` -/
def referenceKey (t : TableName) : Option String × String :=
  (if norm t.db = "" then none else some (norm t.db), norm t.name)

/-- one table of `extract_table_references` -/
def addReference (refs : List (Option String × String)) (t : TableName) : List (Option String × String) :=
  if norm t.name = "" ∨ referenceKey t ∈ refs then refs else refs ++ [referenceKey t]

def extractTableReferences (P : SqlParser) (query : String) (dialect : Option String) : List (Option String × String) :=
  match parseOne P query (normalizeSqlDialect dialect) with
  | .error _ => []
  | .ok t => t.tables.foldl addReference []

/-- the entries of an allow-list, without blank ones -/
def normalizeList (entries : List String) : List String :=
  (entries.filter fun e => strip e ≠ "").map norm

/-- one round of `enforce_table_allowlist` -/
def checkReference (schemas tables : List String) : Option String × String → Except String Unit
  | (some schema, table) =>
    if schemas ≠ [] ∧ schema ∉ schemas then .error ("Schema '" ++ schema ++ "' is not permitted by workspace policy.")
    else if tables ≠ [] ∧ schema ++ "." ++ table ∉ tables ∧ table ∉ tables then
      .error ("Table '" ++ schema ++ "." ++ table ++ "' is not permitted by workspace policy.")
    else .ok ()
  | (none, table) =>
    if tables ≠ [] ∧ table ∉ tables then .error ("Table '" ++ table ++ "' is not permitted by workspace policy.")
    else .ok ()

def enforceTableAllowlist (P : SqlParser) (query : String) (allowedSchemas allowedTables : List String)
    (dialect : Option String) : Except String Unit :=
  let schemas := normalizeList allowedSchemas
  let tables := normalizeList allowedTables
  if schemas = [] ∧ tables = [] then .ok ()
  else forM (extractTableReferences P query dialect) (checkReference schemas tables)

section Permitted

-- the catalogs that are the connection's own, and the tables that a statement kept as text reads or writes
variable (home : String → Prop) (textTables : String → List TableName)

/-- the lists permit a table: it lies in the connection's catalog, in a listed schema (or, without a schema, it is left to
the listed tables), and is listed by its name or its qualified name where tables are -/
structure Permitted (schemas tables : List String) (t : TableName) : Prop where
  catalog : t.catalog = "" ∨ home t.catalog
  schema : schemas ≠ [] →
    (norm t.db ≠ "" ∧ norm t.db ∈ schemas) ∨ (norm t.db = "" ∧ tables ≠ [])
  table : tables ≠ [] →
    (norm t.db ≠ "" ∧ norm t.db ++ "." ++ norm t.name ∈ tables) ∨ norm t.name ∈ tables

/-- the base tables that a statement reads or writes -/
def touched (t : SqlTree) : List TableName := t.baseTables ++ t.commands.flatMap textTables

def Restricted (P : SqlParser) (query : String) (allowedSchemas allowedTables : List String) (dialect : Option String) :
    Prop :=
  normalizeList allowedSchemas ≠ [] ∨ normalizeList allowedTables ≠ [] →
    ∃ statements, P.parse query (normalizeSqlDialect dialect) = .ok statements ∧
      ∀ t, some t ∈ statements → ∀ x ∈ touched textTables t,
        Permitted home (normalizeList allowedSchemas) (normalizeList allowedTables) x

/-- the statements that `parse_one` leaves out -/
def unread : List (Option SqlTree) → List SqlTree
  | some _ :: rest => rest.filterMap id
  | statements => statements.filterMap id

/-- what the guard does not look at is permitted: the statements after the first one, statements kept as text, and in the
first one the catalogs, and names without a schema where only schemas are listed -/
structure RestPermitted (schemas tables : List String) (statements : List (Option SqlTree)) : Prop where
  others : ∀ t ∈ unread statements, ∀ x ∈ touched textTables t, Permitted home schemas tables x
  texts : ∀ t, statements.head? = some (some t) → ∀ x ∈ t.commands.flatMap textTables,
    Permitted home schemas tables x
  catalogs : ∀ t, statements.head? = some (some t) → ∀ x ∈ t.baseTables, x.catalog = "" ∨ home x.catalog
  schemas : schemas ≠ [] → tables = [] → ∀ t, statements.head? = some (some t) → ∀ x ∈ t.baseTables,
    norm x.db ≠ ""

/-! ### What the guard has checked -/

theorem mem_addReference (refs : List (Option String × String)) (t : TableName) :
    (∀ r ∈ refs, r ∈ addReference refs t) ∧ (norm t.name ≠ "" → referenceKey t ∈ addReference refs t) := by
  unfold addReference
  split_ifs with h
  · refine ⟨fun r hr => hr, fun hname => ?_⟩
    rcases h with h | h
    · exact absurd h hname
    · exact h
  · exact ⟨fun r hr => mem_append_left _ hr, fun _ => mem_append_right _ (mem_singleton.2 rfl)⟩

theorem mem_references (ts : List TableName) (refs : List (Option String × String)) (t : TableName)
    (h : referenceKey t ∈ refs ∨ (t ∈ ts ∧ norm t.name ≠ "")) : referenceKey t ∈ ts.foldl addReference refs := by
  induction ts generalizing refs with
  | nil =>
    rcases h with h | ⟨h, _⟩
    · exact h
    · cases h
  | cons u ts ih =>
    obtain ⟨hkeep, hnew⟩ := mem_addReference refs u
    refine ih _ ?_
    rcases h with h | ⟨h, hname⟩
    · exact .inl (hkeep _ h)
    · rcases mem_cons.1 h with rfl | h
      · exact .inl (hnew hname)
      · exact .inr ⟨h, hname⟩

omit [PyText] in
theorem of_forM_ok {α : Type} (f : α → Except String Unit) (l : List α) (h : forM l f = .ok ()) :
    ∀ x ∈ l, f x = .ok () := by
  induction l with
  | nil =>
    intro x hx
    cases hx
  | cons a l ih =>
    rw [forM_cons] at h
    cases ha : f a with
    | error e =>
      rw [ha] at h
      cases h
    | ok u =>
      rw [ha] at h
      intro x hx
      rcases mem_cons.1 hx with rfl | hx
      · exact ha
      · exact ih h x hx

/-- what a passed check says of a table -/
theorem checkReference_ok {schemas tables : List String} {t : TableName}
    (h : checkReference schemas tables (referenceKey t) = .ok ()) :
    (schemas ≠ [] → norm t.db ≠ "" → norm t.db ∈ schemas) ∧
      (tables ≠ [] → (norm t.db ≠ "" ∧ norm t.db ++ "." ++ norm t.name ∈ tables) ∨
        norm t.name ∈ tables) := by
  unfold referenceKey at h
  by_cases hdb : norm t.db = ""
  · rw [if_pos hdb, checkReference] at h
    split_ifs at h with htable
    refine ⟨fun _ hne => absurd hdb hne, fun hne => .inr ?_⟩
    by_contra hno
    exact htable ⟨hne, hno⟩
  · rw [if_neg hdb, checkReference] at h
    split_ifs at h with hschema htable
    refine ⟨fun hne _ => ?_, fun hne => ?_⟩
    · by_contra hno
      exact hschema ⟨hne, hno⟩
    · by_contra hno
      rw [not_or, not_and] at hno
      exact htable ⟨hne, hno.1 hdb, hno.2⟩

/-- an accepted text has its first statement checked -/
theorem checked_of_accepted {P : SqlParser} {query : String} {allowedSchemas allowedTables : List String}
    {dialect : Option String} (h : enforceTableAllowlist P query allowedSchemas allowedTables dialect = .ok ())
    (hlisted : normalizeList allowedSchemas ≠ [] ∨ normalizeList allowedTables ≠ []) {t : SqlTree}
    {rest : List (Option SqlTree)} (hparse : P.parse query (normalizeSqlDialect dialect) = .ok (some t :: rest))
    {x : TableName} (hx : x ∈ t.baseTables) :
    checkReference (normalizeList allowedSchemas) (normalizeList allowedTables) (referenceKey x) = .ok () := by
  unfold enforceTableAllowlist at h
  have hnot : ¬ (normalizeList allowedSchemas = [] ∧ normalizeList allowedTables = []) := by
    rintro ⟨h₁, h₂⟩
    rcases hlisted with hlisted | hlisted
    · exact hlisted h₁
    · exact hlisted h₂
  rw [if_neg hnot] at h
  have hrefs : extractTableReferences P query dialect = t.tables.foldl addReference [] := by
    unfold extractTableReferences parseOne
    rw [hparse]
  obtain ⟨hmem, hname⟩ := SqlTree.tables_of_base [] t x hx
  refine of_forM_ok _ _ h _ ?_
  rw [hrefs]
  exact mem_references _ _ x (.inr ⟨hmem, hname⟩)

omit [PyText] in
theorem mem_unread (statements : List (Option SqlTree)) (t : SqlTree) (h : some t ∈ statements) :
    statements.head? = some (some t) ∨ t ∈ unread statements := by
  cases statements with
  | nil => cases h
  | cons a rest =>
    cases a with
    | none =>
      right
      exact mem_filterMap.2 ⟨some t, h, rfl⟩
    | some u =>
      rcases mem_cons.1 h with h | h
      · left
        rw [h]
        rfl
      · right
        exact mem_filterMap.2 ⟨some t, h, rfl⟩

omit [PyText] in
theorem mem_of_unread (statements : List (Option SqlTree)) (t : SqlTree) (h : t ∈ unread statements) :
    some t ∈ statements := by
  have hfilter : ∀ l : List (Option SqlTree), t ∈ l.filterMap id → some t ∈ l := by
    intro l hl
    obtain ⟨a, ha, hat⟩ := mem_filterMap.1 hl
    rw [id] at hat
    rwa [hat] at ha
  cases statements with
  | nil => cases h
  | cons a rest =>
    cases a with
    | none => exact hfilter _ h
    | some u => exact mem_cons_of_mem _ (hfilter rest h)

/-- **Listed tables.** Where anything is listed, a text that is accepted parses and touches permitted tables only, if and
only if it parses and what the guard does not look at is permitted. -/
theorem allowlist_iff (P : SqlParser) (query : String) (allowedSchemas allowedTables : List String)
    (dialect : Option String) (h : enforceTableAllowlist P query allowedSchemas allowedTables dialect = .ok ()) :
    Restricted home textTables P query allowedSchemas allowedTables dialect ↔
      (normalizeList allowedSchemas ≠ [] ∨ normalizeList allowedTables ≠ [] →
        ∃ statements, P.parse query (normalizeSqlDialect dialect) = .ok statements ∧
          RestPermitted home textTables (normalizeList allowedSchemas) (normalizeList allowedTables) statements) := by
  refine forall_congr' fun hlisted => exists_congr fun statements => and_congr_right fun hparse => ?_
  constructor
  · intro hall
    have hhead : ∀ t, statements.head? = some (some t) → some t ∈ statements := fun t ht => mem_of_mem_head? ht
    refine ⟨?_, ?_, ?_, ?_⟩
    · intro t ht
      exact hall t (mem_of_unread _ _ ht)
    · intro t ht x hx
      exact hall t (hhead t ht) x (mem_append_right _ hx)
    · intro t ht x hx
      exact (hall t (hhead t ht) x (mem_append_left _ hx)).catalog
    · intro hschemas htables t ht x hx
      rcases (hall t (hhead t ht) x (mem_append_left _ hx)).schema hschemas with hin | hnone
      · exact hin.1
      · exact absurd htables hnone.2
  · intro hrest t ht x hx
    rcases mem_unread _ _ ht with hhead | hunread
    · rcases mem_append.1 hx with hx | hx
      · -- the guard has seen this table
        cases statements with
        | nil => cases hhead
        | cons a rest =>
          cases hhead
          obtain ⟨hschema, htable⟩ := checkReference_ok (checked_of_accepted h hlisted hparse hx)
          refine ⟨hrest.catalogs t rfl x hx, fun hschemas => ?_, htable⟩
          by_cases hdb : norm x.db = ""
          · refine .inr ⟨hdb, fun htables => ?_⟩
            exact hrest.schemas hschemas htables t rfl x hx hdb
          · exact .inl ⟨hdb, hschema hschemas hdb⟩
      · exact hrest.texts t hhead x hx
    · exact hrest.others t hunread x hx

end Permitted

end Guards

/-! ## Three texts -/

section Texts

open scoped Ascii

def fromTable (t : TableName) : SqlTree :=
  .node .select [.node .star [], .node (.other "From") [.node (.table t) []]]

/-- `SELECT * INTO copy FROM orders` -/
def selectInto : SqlTree :=
  .node .select [.node .star [], .node .into [.node (.table ⟨"", "", "copy"⟩) []],
    .node (.other "From") [.node (.table ⟨"", "", "orders"⟩) []]]

def threeTexts : SqlParser where
  parse
    | "SELECT * INTO copy FROM orders", _ => .ok [some selectInto]
    | "SELECT * FROM salaries", _ => .ok [some (fromTable ⟨"", "", "salaries"⟩)]
    | "SELECT * FROM public.orders", _ => .ok [some (fromTable ⟨"", "public", "orders"⟩)]
    | _, _ => .error "Invalid expression"

/-- a selection into a new table is accepted -/
theorem selectInto_accepted :
    enforceReadOnlySql threeTexts "SELECT * INTO copy FROM orders" false none = .ok () ∧
      ¬ WritesNothing threeTexts "SELECT * INTO copy FROM orders" none := by
  refine ⟨by decide, fun h => ?_⟩
  have hinto := h _ rfl selectInto mem_cons_self .into (by decide)
  cases hinto

theorem publicOrders_reads : WritesNothing threeTexts "SELECT * FROM public.orders" none := by
  refine (readOnly_iff threeTexts "SELECT * FROM public.orders" none (by decide)).2 ?_
  intro statements hparse t ht
  cases hparse
  obtain rfl := Option.some.inj (mem_singleton.1 ht)
  decide

/-- only the schema `public` is listed, and a table without a schema is accepted -/
theorem unqualified_accepted :
    enforceTableAllowlist threeTexts "SELECT * FROM salaries" ["public"] [] none = .ok () ∧
      ¬ Restricted (fun _ => False) (fun _ => []) threeTexts "SELECT * FROM salaries" ["public"] [] none := by
  refine ⟨by decide, fun h => ?_⟩
  obtain ⟨statements, hparse, hall⟩ := h (.inl (by decide))
  cases hparse
  have hpermitted := hall _ mem_cons_self ⟨"", "", "salaries"⟩ (by decide)
  rcases hpermitted.schema (by decide) with ⟨hdb, _⟩ | ⟨_, htables⟩
  · exact hdb (by decide)
  · exact htables (by decide)

theorem publicOrders_permitted :
    Restricted (fun _ => False) (fun _ => []) threeTexts "SELECT * FROM public.orders" ["public"] [] none := by
  refine (allowlist_iff (fun _ => False) (fun _ => []) threeTexts "SELECT * FROM public.orders" ["public"] [] none
    (by decide)).2 fun _ => ⟨_, rfl, ?_⟩
  have htables : (fromTable ⟨"", "public", "orders"⟩).baseTables = [⟨"", "public", "orders"⟩] := by decide
  have hhead : ∀ t : SqlTree, [some (fromTable ⟨"", "public", "orders"⟩)].head? = some (some t) →
      t = fromTable ⟨"", "public", "orders"⟩ := by
    intro t ht
    exact (Option.some.inj (Option.some.inj ht)).symm
  refine ⟨?_, ?_, ?_, ?_⟩
  · intro t ht
    cases ht
  · intro t ht x hx
    rw [hhead t ht] at hx
    cases hx
  · intro t ht x hx
    rw [hhead t ht, htables, mem_singleton] at hx
    rw [hx]
    exact .inl rfl
  · intro _ _ t ht x hx
    rw [hhead t ht, htables, mem_singleton] at hx
    rw [hx]
    decide

end Texts

end Langbridge.Runtime.SqlGuards
