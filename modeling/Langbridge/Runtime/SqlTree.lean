/-
The trees that sqlglot parses SQL into, as the guards of the runtime read them: every construct is a node of its own
kind, and a guard asks for the nodes of a kind at any depth.

`baseTables` are the tables that a statement names, without the names that a `WITH` list in scope defines. An entry of
the list sees the entries before it (all of them when the list is recursive), the statement around the list sees all.
-/
import Langbridge.Core.Rose
import Langbridge.Core.Text

namespace Langbridge.Runtime

open Core List PyText

/-- `exp.Table`; an absent part is the empty string, and so is the name of a table function -/
structure TableName where
  catalog : String
  db : String
  name : String
  deriving DecidableEq

/-- the node classes; `command` is a statement that sqlglot keeps as text -/
inductive SqlNode where
  | select
  | setOperation (cls : String)
  | subquery
  | withList (recursive : Bool)
  | cte (name : String)
  | table (t : TableName)
  | column (name : String)
  | star
  | literal (text : String) (isString : Bool)
  | into
  | insert
  | update
  | delete
  | drop
  | alter
  | create
  | merge
  | truncateTable
  | command (text : String)
  | other (cls : String)
  deriving DecidableEq

abbrev SqlTree := Rose SqlNode

namespace SqlTree

def table? : SqlNode → Option TableName
  | .table t => some t
  | _ => none

def column? : SqlNode → Option String
  | .column n => some n
  | _ => none

def command? : SqlNode → Option String
  | .command text => some text
  | _ => none

/-- `find_all(exp.Table)` -/
def tables (t : SqlTree) : List TableName := t.labels.filterMap table?

/-- `find_all(exp.Column)` -/
def columns (t : SqlTree) : List String := t.labels.filterMap column?

/-- `find_all(exp.Command)` -/
def commands (t : SqlTree) : List String := t.labels.filterMap command?

/-- the names that the `WITH` list of a node defines -/
def cteNames (cs : List SqlTree) : List String :=
  cs.flatMap fun
    | .node (.withList _) ctes => ctes.filterMap fun
      | .node (.cte n) _ => some n
      | _ => none
    | _ => []

theorem mem_tables (t : SqlTree) (x : TableName) : x ∈ tables t ↔ .table x ∈ t.labels := by
  rw [tables, mem_filterMap]
  constructor
  · rintro ⟨l, hl, hx⟩
    cases l with
    | table y =>
      cases hx
      exact hl
    | _ => cases hx
  · intro h
    exact ⟨_, h, rfl⟩

theorem mem_tables_of_child {l : SqlNode} {cs : List SqlTree} {c : SqlTree} {x : TableName} (hc : c ∈ cs)
    (h : x ∈ tables c) : x ∈ tables (.node l cs) := by
  rw [mem_tables] at h ⊢
  exact Rose.mem_labels_of_child hc h

section Base

variable [PyText]

def ownTable (names : List String) : SqlNode → List TableName
  | .table t =>
    if norm t.name = "" || (t.db = "" && names.any fun n => norm n = norm t.name) then [] else [t]
  | _ => []

mutual

def baseTablesIn (names : List String) : SqlTree → List TableName
  | .node l cs => ownTable names l ++ partTables (cteNames cs ++ names) names cs

/-- the base tables of the parts of a statement: `inner` is in scope in them, `outer` around the statement -/
def partTables (inner outer : List String) : List SqlTree → List TableName
  | [] => []
  | .node (.withList r) ctes :: rest => cteTables (if r then inner else outer) ctes ++ partTables inner outer rest
  | t :: rest => baseTablesIn inner t ++ partTables inner outer rest

/-- the base tables of the entries of a `WITH` list -/
def cteTables (names : List String) : List SqlTree → List TableName
  | [] => []
  | .node (.cte n) cs :: rest => partTables names names cs ++ cteTables (n :: names) rest
  | t :: rest => baseTablesIn names t ++ cteTables names rest

end

def baseTables (t : SqlTree) : List TableName := baseTablesIn [] t

theorem mem_ownTable {names : List String} {l : SqlNode} {x : TableName} (h : x ∈ ownTable names l) :
    l = .table x ∧ norm x.name ≠ "" := by
  cases l with
  | table t =>
    rw [ownTable] at h
    split_ifs at h with hskip
    · cases h
    · obtain rfl := mem_singleton.1 h
      rw [Bool.or_eq_true, decide_eq_true_eq, not_or] at hskip
      exact ⟨rfl, hskip.1⟩
  | _ => cases h

theorem mem_partTables {inner outer : List String} {t : SqlTree} {rest : List SqlTree} {x : TableName}
    (h : x ∈ partTables inner outer (t :: rest)) :
    (∃ r ctes, t = .node (.withList r) ctes ∧ x ∈ cteTables (if r then inner else outer) ctes) ∨
      x ∈ baseTablesIn inner t ∨ x ∈ partTables inner outer rest := by
  cases t with
  | node l cs =>
    cases l with
    | withList r =>
      rcases mem_append.1 h with h | h
      · exact .inl ⟨r, cs, rfl, h⟩
      · exact .inr (.inr h)
    | _ => exact .inr (mem_append.1 h)

theorem mem_cteTables {names : List String} {t : SqlTree} {rest : List SqlTree} {x : TableName}
    (h : x ∈ cteTables names (t :: rest)) :
    (∃ n cs, t = .node (.cte n) cs ∧ x ∈ partTables names names cs) ∨ x ∈ baseTablesIn names t ∨
      ∃ names', x ∈ cteTables names' rest := by
  cases t with
  | node l cs =>
    cases l with
    | cte n =>
      rcases mem_append.1 h with h | h
      · exact .inl ⟨n, cs, rfl, h⟩
      · exact .inr (.inr ⟨_, h⟩)
    | _ => exact .inr ((mem_append.1 h).imp_right fun h => ⟨names, h⟩)

mutual

/-- a base table is a named `exp.Table` of the statement -/
theorem tables_of_base (names : List String) (t : SqlTree) (x : TableName) (h : x ∈ baseTablesIn names t) :
    x ∈ tables t ∧ norm x.name ≠ "" := by
  cases t with
  | node l cs =>
    rcases mem_append.1 h with h | h
    · obtain ⟨rfl, hname⟩ := mem_ownTable h
      exact ⟨(mem_tables _ _).2 (Rose.label_mem_labels _), hname⟩
    · obtain ⟨c, hc, hx, hname⟩ := tables_of_part _ _ cs x h
      exact ⟨mem_tables_of_child hc hx, hname⟩

theorem tables_of_part (inner outer : List String) (cs : List SqlTree) (x : TableName)
    (h : x ∈ partTables inner outer cs) : ∃ c ∈ cs, x ∈ tables c ∧ norm x.name ≠ "" := by
  cases cs with
  | nil => cases h
  | cons t rest =>
    rcases mem_partTables h with ⟨r, ctes, ht, h⟩ | h | h
    · cases t with
      | node l cs =>
        obtain ⟨rfl, rfl⟩ := Rose.node.inj ht
        obtain ⟨c, hc, hx, hname⟩ := tables_of_cte _ cs x h
        exact ⟨_, mem_cons_self, mem_tables_of_child hc hx, hname⟩
    · obtain ⟨hx, hname⟩ := tables_of_base _ t x h
      exact ⟨t, mem_cons_self, hx, hname⟩
    · obtain ⟨c, hc, hx⟩ := tables_of_part _ _ rest x h
      exact ⟨c, mem_cons_of_mem _ hc, hx⟩

theorem tables_of_cte (names : List String) (cs : List SqlTree) (x : TableName) (h : x ∈ cteTables names cs) :
    ∃ c ∈ cs, x ∈ tables c ∧ norm x.name ≠ "" := by
  cases cs with
  | nil => cases h
  | cons t rest =>
    rcases mem_cteTables h with ⟨n, body, ht, h⟩ | h | ⟨names', h⟩
    · cases t with
      | node l cs =>
        obtain ⟨rfl, rfl⟩ := Rose.node.inj ht
        obtain ⟨c, hc, hx, hname⟩ := tables_of_part _ _ cs x h
        exact ⟨_, mem_cons_self, mem_tables_of_child hc hx, hname⟩
    · obtain ⟨hx, hname⟩ := tables_of_base _ t x h
      exact ⟨t, mem_cons_self, hx, hname⟩
    · obtain ⟨c, hc, hx⟩ := tables_of_cte names' rest x h
      exact ⟨c, mem_cons_of_mem _ hc, hx⟩

end

end Base

end SqlTree

end Langbridge.Runtime
