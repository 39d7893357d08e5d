/-
Canonical SQL of the analyst (`orchestrator/tools/sql_analyst/tool.py`): sqlglot's trees, and what a column
reference denotes. A scope holds the sources of a query and of the queries around it; a source is a table, a derived
table or an entry of a `WITH` list, under the name that the query gives it. Not modelled: `NATURAL` and `USING` joins,
`LATERAL` and recursive `WITH`.
-/
import Langbridge.Core.Phrases
import Langbridge.Core.Text

namespace Langbridge.Orchestrator.CanonicalSql

open Core Phrases

/-! ## Trees -/

/-- the infix operators, `BETWEEN` with the pair of its bounds as right operand -/
inductive Operator where
  | or | and
  | eq | neq | gt | gte | lt | lte
  | between | is | isIn | like | ilike
  | bounds
  | concat | add | sub | mul | div | mod | pow
  | other (level : ℕ) (cls : String)
  deriving DecidableEq

inductive PrefixOperator where
  | not
  | neg
  | other (least : ℕ) (cls : String)
  deriving DecidableEq

/-- the levels of sqlglot's parser -/
instance : Binding Operator where
  level
    | .or => 1
    | .and => 2
    | .eq | .neq => 3
    | .gt | .gte | .lt | .lte => 4
    | .between | .is | .isIn | .like | .ilike => 5
    | .bounds => 6
    | .concat => 7
    | .add | .sub => 8
    | .mul | .div | .mod => 9
    | .pow => 10
    | .other level _ => level

instance : Taking PrefixOperator where
  least
    | .not => 3
    | .neg => 11
    | .other least _ => least

/-- `exp.Column`; an absent qualifier is empty -/
structure Column where
  table : String
  name : String
  deriving DecidableEq

/-- the constructs that enclose their parts; an absent alias is empty -/
inductive Construct where
  | star
  | literal (text : String)
  | paren
  | call (name : String)
  | anonymous (name : String)
  | cast (type : String)
  | tryCast (type : String)
  | aliased (name : String)
  | projections
  | select
  | setOperation (cls : String)
  | subquery (asName : String)
  | withClause
  | cte (name : String)
  | fromClause
  | joinClause
  | whereClause
  | havingClause
  | table (name asName : String)
  | other (cls : String)
  deriving DecidableEq

abbrev Sql := Phrase Column Construct PrefixOperator Operator

abbrev SqlText := List (Token Column Construct PrefixOperator Operator)

/-! ## Scopes -/

/-- what a query selects from, under the name it gives it; `columns` are the columns of tables that its columns are -/
structure Source where
  name : String
  table : Option String
  columns : String → Option (String × String)

/-- the entries of the `WITH` lists in scope, and the sources of each query, the innermost first -/
structure Scope where
  ctes : List Source
  frames : List (List Source)

section Scopes

variable [PyText] (declared : String → String → Bool)

open PyText

/-- the source that a qualifier denotes -/
def Scope.source (scope : Scope) (q : String) : Option Source :=
  scope.frames.findSome? fun frame => frame.find? fun s => s.name = norm q

def Scope.denotes (scope : Scope) (c : Column) : Option (String × String) :=
  if norm c.table = "" then scope.frames.findSome? fun frame => frame.findSome? fun s => s.columns (norm c.name)
  else (scope.source c.table).bind fun s => s.columns (norm c.name)

/-- a table, or the entry of a `WITH` list that hides it -/
def tableSource (scope : Scope) (name asName : String) : Source :=
  let exposed := if norm asName = "" then norm name else norm asName
  match scope.ctes.find? fun s => s.name = norm name with
  | some entry => { entry with name := exposed }
  | none => ⟨exposed, some (norm name), fun c => if declared (norm name) c then some (norm name, c) else none⟩

def projected (scope : Scope) : List Sql → String → Option (String × String)
  | [], _ => none
  | .closed (.aliased n) (.leaf c :: _) :: ps, name =>
    if norm n = name then scope.denotes c else projected scope ps name
  | .closed (.aliased n) _ :: ps, name => if norm n = name then none else projected scope ps name
  | .leaf c :: ps, name => if norm c.name = name then scope.denotes c else projected scope ps name
  | .closed .star _ :: ps, name =>
    (scope.frames.head?.bind fun frame => frame.findSome? fun s => s.columns name).or (projected scope ps name)
  | _ :: ps, name => projected scope ps name

/-- the output columns of a `SELECT` -/
def selected (scope : Scope) : List Sql → String → Option (String × String)
  | [], _ => none
  | .closed .projections ps :: _, name => projected scope ps name
  | _ :: parts, name => selected scope parts name

mutual

/-- the output columns of a query, as columns of tables -/
def outputs (scope : Scope) : Sql → String → Option (String × String)
  | .closed .select parts =>
    let inner := withEntries scope parts
    selected ⟨inner.ctes, sources inner parts :: inner.frames⟩ parts
  | .closed (.setOperation _) parts => firstOutputs (withEntries scope parts) parts
  | .closed (.subquery _) parts => firstOutputs scope parts
  | _ => fun _ => none

/-- the output columns of the first query -/
def firstOutputs (scope : Scope) : List Sql → String → Option (String × String)
  | [] => fun _ => none
  | .closed .withClause _ :: parts => firstOutputs scope parts
  | q :: _ => outputs scope q

/-- a scope with the entries of the `WITH` list of a query -/
def withEntries (scope : Scope) : List Sql → Scope
  | [] => scope
  | .closed .withClause entries :: _ => addEntries scope entries
  | _ :: parts => withEntries scope parts

def addEntries (scope : Scope) : List Sql → Scope
  | [] => scope
  | .closed (.cte n) (q :: _) :: entries =>
    addEntries { scope with ctes := ⟨norm n, none, outputs scope q⟩ :: scope.ctes } entries
  | _ :: entries => addEntries scope entries

/-- the sources of a `SELECT` -/
def sources (scope : Scope) : List Sql → List Source
  | [] => []
  | .closed .fromClause (s :: _) :: parts => source scope s :: sources scope parts
  | .closed .joinClause (s :: _) :: parts => source scope s :: sources scope parts
  | _ :: parts => sources scope parts

def source (scope : Scope) : Sql → Source
  | .closed (.table n a) _ => tableSource declared scope n a
  | .closed (.subquery a) (q :: _) => ⟨norm a, none, outputs scope q⟩
  | _ => ⟨"", none, fun _ => none⟩

end

/-- the scope in a `SELECT` -/
def enter (scope : Scope) (parts : List Sql) : Scope :=
  let inner := withEntries declared scope parts
  ⟨inner.ctes, sources declared inner parts :: inner.frames⟩

/-- the scope in the `i`-th part of a construct -/
def partScope (scope : Scope) (label : Construct) (parts : List Sql) (i : ℕ) : Scope :=
  match label, parts[i]? with
  | .select, some (.closed .withClause _) => scope
  | .select, _ => enter declared scope parts
  | .setOperation _, some (.closed .withClause _) => scope
  | .setOperation _, _ => withEntries declared scope parts
  | .withClause, _ => addEntries declared scope (parts.take i)
  | .fromClause, _ => if i = 0 then ⟨scope.ctes, scope.frames.tail⟩ else scope
  | .joinClause, _ => if i = 0 then ⟨scope.ctes, scope.frames.tail⟩ else scope
  | _, _ => scope

end Scopes

end Langbridge.Orchestrator.CanonicalSql
