/-
SQL queries as the federation planner sees them: sqlglot's expression tree, kept as two layers of rose trees.

- `Expr`: a scalar expression. Every node is a label with its arguments; the labels the planner looks for (columns,
  stars, conjunctions, parentheses) are told apart, all other node classes are `op` under their class name.
- `Query`: a tree of query bodies. The children of a body are its queries: first the bodies of its `WITH` list, in
  order, then for a `SELECT` the derived tables and subqueries that its clauses mention by position (`sub i`,
  `derived i`), for a set operation the two operands, for a parenthesised query (`exp.Subquery`) its content.

`find_all` on a query is a question about the labels of the tree (`tables`, `columns`, `hasStar`), `transform` is a
relabelling (`mapRefs`). Not modelled: `NATURAL` and `USING` joins, `LATERAL`, recursive `WITH`, window definitions.
-/
import Langbridge.Core.Text
import Langbridge.Core.Rose
import Langbridge.Core.Joins

namespace Langbridge.Federation.Sql

open Core

/-! ## Values -/

/-- a SQL value; what is no null, boolean, integer or text is kept by its type and its rendering -/
inductive Val where
  | null
  | bool (b : Bool)
  | int (i : ℤ)
  | text (s : String)
  | other (type rendering : String)
deriving DecidableEq

/-- the truth value of a condition in SQL's three-valued logic -/
def Val.truth : Val → Option Bool
  | .bool b => some b
  | .int i => some (i ≠ 0)
  | _ => none

/-- a truth value as a SQL value -/
def Val.ofTruth : Option Bool → Val
  | some b => .bool b
  | none => .null

@[simp] theorem Val.truth_ofTruth (t : Option Bool) : (Val.ofTruth t).truth = t := by
  cases t <;> rfl

/-- three-valued conjunction -/
def and3 : Option Bool → Option Bool → Option Bool
  | some true, some true => some true
  | some false, _ => some false
  | _, some false => some false
  | _, _ => none

@[simp] theorem and3_eq_true (a b : Option Bool) : and3 a b = some true ↔ a = some true ∧ b = some true := by
  rcases a with _ | a <;> rcases b with _ | b <;> (try cases a) <;> (try cases b) <;> simp [and3]

/-! ## Expressions -/

/-- `exp.Column`: an absent part is the empty string -/
structure ColumnRef where
  name : String
  table : String
  db : String
  catalog : String
deriving DecidableEq

/-- `exp.Table` -/
structure TableNode where
  name : String
  db : String
  catalog : String
  asName : String
deriving DecidableEq

def TableNode.aliasOrName (t : TableNode) : String := if t.asName = "" then t.name else t.asName

/-- the node classes of an expression -/
inductive Node where
  | column (ref : ColumnRef)
  | star
  | literal (v : Val)
  | sub (i : ℕ)
  | and
  | paren
  | op (cls : String)
deriving DecidableEq

abbrev Expr := Rose Node

namespace Expr

def column (ref : ColumnRef) : Expr := .node (.column ref) []

def lit (v : Val) : Expr := .node (.literal v) []

def and (l r : Expr) : Expr := .node .and [l, r]

def op (cls : String) (args : List Expr) : Expr := .node (.op cls) args

end Expr

def Node.column? : Node → Option ColumnRef
  | .column r => some r
  | _ => none

/-- `expression.find_all(exp.Column)` -/
def Expr.columns (e : Expr) : List ColumnRef := e.labels.filterMap Node.column?

/-- `expression.find(exp.Star)` -/
def Expr.hasStar (e : Expr) : Bool := Node.star ∈ e.labels

def Node.isSub : Node → Bool
  | .sub _ => true
  | _ => false

/-- the expression has a subquery -/
def Expr.hasSub (e : Expr) : Bool := e.labels.any Node.isSub

def Node.mapColumn (f : ColumnRef → ColumnRef) : Node → Node
  | .column r => .column (f r)
  | n => n

/-- `expression.transform` on columns -/
def Expr.mapColumns (f : ColumnRef → ColumnRef) (e : Expr) : Expr := e.map (Node.mapColumn f)

theorem Expr.mem_columns (e : Expr) (r : ColumnRef) : r ∈ e.columns ↔ Node.column r ∈ e.labels := by
  simp only [Expr.columns, List.mem_filterMap]
  constructor
  · rintro ⟨n, hn, hr⟩
    cases n with
    | column r' => simp only [Node.column?, Option.some.injEq] at hr; exact hr ▸ hn
    | _ => simp [Node.column?] at hr
  · exact fun h => ⟨_, h, rfl⟩

/-! ## Queries -/

/-- an element of a select list -/
inductive Item where
  | star
  | tableStar (ref : ColumnRef)
  | expr (e : Expr) (asName : String)

/-- a source of rows; `raw` is text wrapped in parentheses -/
inductive FromItem where
  | table (t : TableNode)
  | derived (i : ℕ) (asName : String)
  | raw (sql asName : String)

/-- `exp.Join`: its side, the text of its kind (`INNER`, `CROSS`, ...) and its condition -/
structure Join where
  this : FromItem
  side : Joins.Kind
  kind : String
  on : Option Expr

/-- `exp.Select`; `rest` holds the remaining clauses (`group`, `having`, `order`, `limit`, `distinct`, ...) -/
structure Select where
  ctes : List String
  items : List Item
  source : Option FromItem
  joins : List Join
  cond : Option Expr
  rest : List (String × List Expr)

/-- a query body: `SELECT`, a set operation, or a parenthesised query -/
inductive Body where
  | select (s : Select)
  | setOp (op : String) (ctes : List String) (rest : List (String × List Expr))
  | wrap

abbrev Query := Rose Body

/-! ## Looking through a query -/

def Item.exprs : Item → List Expr
  | .expr e _ => [e]
  | _ => []

def Item.columns : Item → List ColumnRef
  | .star => []
  | .tableStar r => [r]
  | .expr e _ => e.columns

def Item.hasStar : Item → Bool
  | .expr e _ => e.hasStar
  | _ => true

def FromItem.aliasOrName : FromItem → String
  | .table t => t.aliasOrName
  | .derived _ a => a
  | .raw _ a => a

def FromItem.table? : FromItem → Option TableNode
  | .table t => some t
  | _ => none

def FromItem.raw? : FromItem → Option String
  | .raw sql _ => some sql
  | _ => none

namespace Select

/-- `FROM` and the joined sources, in order -/
def sources (s : Select) : List FromItem := s.source.toList ++ s.joins.map Join.this

/-- the expressions outside the select list -/
def clauseExprs (s : Select) : List Expr :=
  s.joins.filterMap Join.on ++ s.cond.toList ++ s.rest.flatMap Prod.snd

def columns (s : Select) : List ColumnRef := s.items.flatMap Item.columns ++ s.clauseExprs.flatMap Expr.columns

def hasStar (s : Select) : Bool := s.items.any Item.hasStar || s.clauseExprs.any Expr.hasStar

def tables (s : Select) : List TableNode := s.sources.filterMap FromItem.table?

end Select

namespace Body

def cteNames : Body → List String
  | .select s => s.ctes
  | .setOp _ ctes _ => ctes
  | .wrap => []

def columns : Body → List ColumnRef
  | .select s => s.columns
  | .setOp _ _ rest => (rest.flatMap Prod.snd).flatMap Expr.columns
  | .wrap => []

def hasStar : Body → Bool
  | .select s => s.hasStar
  | .setOp _ _ rest => (rest.flatMap Prod.snd).any Expr.hasStar
  | .wrap => false

def tables : Body → List TableNode
  | .select s => s.tables
  | _ => []

def raws : Body → List String
  | .select s => s.sources.filterMap FromItem.raw?
  | _ => []

def isSelect : Body → Bool
  | .select _ => true
  | _ => false

end Body

namespace Query

/-- `find_all(exp.Table)` -/
def tables (q : Query) : List TableNode := q.labels.flatMap Body.tables

/-- the bracketed texts of a query; a parsed query has none -/
def raws (q : Query) : List String := q.labels.flatMap Body.raws

/-- `find_all(exp.Column)` -/
def columns (q : Query) : List ColumnRef := q.labels.flatMap Body.columns

/-- `find(exp.Star)` -/
def hasStar (q : Query) : Bool := q.labels.any Body.hasStar

end Query

/-! ## Rewriting columns and tables -/

section MapRefs

variable (fc : ColumnRef → ColumnRef) (ft : TableNode → TableNode)

def Item.mapRefs : Item → Item
  | .star => .star
  | .tableStar r => .tableStar (fc r)
  | .expr e a => .expr (e.mapColumns fc) a

def FromItem.mapRefs : FromItem → FromItem
  | .table t => .table (ft t)
  | .derived i a => .derived i a
  | .raw s a => .raw s a

def Join.mapRefs (j : Join) : Join :=
  { j with this := j.this.mapRefs ft, on := j.on.map (Expr.mapColumns fc) }

def mapRest (rest : List (String × List Expr)) : List (String × List Expr) :=
  rest.map fun c => (c.1, c.2.map (Expr.mapColumns fc))

def Select.mapRefs (s : Select) : Select where
  ctes := s.ctes
  items := s.items.map (Item.mapRefs fc)
  source := s.source.map (FromItem.mapRefs ft)
  joins := s.joins.map (Join.mapRefs fc ft)
  cond := s.cond.map (Expr.mapColumns fc)
  rest := mapRest fc s.rest

def Body.mapRefs : Body → Body
  | .select s => .select (s.mapRefs fc ft)
  | .setOp op ctes rest => .setOp op ctes (mapRest fc rest)
  | .wrap => .wrap

/-- `expression.transform` on columns and tables -/
def Query.mapRefs (q : Query) : Query := q.map (Body.mapRefs fc ft)

@[simp] theorem Select.mapRefs_sources (s : Select) :
    (s.mapRefs fc ft).sources = s.sources.map (FromItem.mapRefs ft) := by
  cases h : s.source <;> simp [Select.sources, Select.mapRefs, Join.mapRefs, h, Function.comp_def]

@[simp] theorem Body.mapRefs_cteNames (b : Body) : (b.mapRefs fc ft).cteNames = b.cteNames := by
  cases b <;> rfl

end MapRefs

/-! ## Common table expressions in scope -/

/-- hand every child the `WITH` names it may mention: a `WITH` body those before it, the others all -/
def scopeChildren {γ : Type} : List String → List (List String → γ) → List String → List γ
  | [], cs, scope => cs.map fun c => c scope
  | _ :: _, [], _ => []
  | n :: ns, c :: cs, scope => c scope :: scopeChildren ns cs (n :: scope)

/-- every body of the query with the `WITH` names in scope in its clauses -/
def Query.scopedBodies (q : Query) : List String → List (List String × Body) :=
  q.fold fun b subs scope =>
    (b.cteNames.reverse ++ scope, b) :: (scopeChildren b.cteNames subs scope).flatten

end Langbridge.Federation.Sql
