/-
What a query means: a denotation of `Query` over lists of rows, shared by the sources and the local engine.

A query is first given a static meaning (which columns it returns; a name that does not resolve makes it `none`,
whatever the tables hold), and with it a function from the rows of the enclosing queries to its own rows. Names are
compared up to case, the aliases of one `FROM` must differ up to case, a repeated column name is its first occurrence.

The meaning of operators, of grouping, ordering and limits, and of set operations is a parameter (`Interp`); a select
list of plain columns with no further clause is a projection. `WHERE` and `ON` keep the rows on which the condition
is true in three-valued logic, and `AND` is three-valued conjunction.

Order is the order of the lists: the scan of a table returns its rows in table order.
-/
import Langbridge.Federation.Sql

namespace Langbridge.Federation.Sql

open Core Core.Joins PyText

variable [PyText]

/-! ## Rows -/

/-- equality of identifiers -/
def sameName (a b : String) : Bool := lower a = lower b

/-- a row with its column names -/
abbrev Row := List (String × Val)

/-- the value of a column -/
def Row.get (row : Row) (c : String) : Val := ((row.find? fun e => sameName e.1 c).map Prod.snd).getD .null

/-- the value of a column of a row that may be null-extended -/
def Row.getOr (row : Option Row) (c : String) : Val := (row.map fun r => Row.get r c).getD .null

def hasCol (cols : List String) (c : String) : Bool := cols.any fun c' => sameName c' c

/-- the columns `cols` of a row -/
def Row.project (cols : List String) (row : Row) : Row := cols.map fun c => (c, row.get c)

/-- the values of a row, without their names -/
def Row.vals (row : Row) : List Val := row.map Prod.snd

structure Table where
  cols : List String
  rows : List Row
deriving DecidableEq

/-! ## Interpretation -/

/-- an argument of an operator: a value, the rows of a subquery, or a column of the select list named in a clause -/
inductive Cell where
  | val (v : Val)
  | rows (l : List (List Val))
  | output (name : String)
deriving DecidableEq

def Cell.truth : Cell → Option Bool
  | .val v => v.truth
  | _ => none

/-- a select list and its clauses with every column erased -/
structure Shape where
  items : List Expr
  rest : List (String × List Expr)

/-- the meaning of operators, of a select list with its clauses over the leaf values of every row, and of a set
operation -/
structure Interp where
  op : String → List Cell → Val
  finish : Shape → List (List Cell) → List (List Val)
  setOp : String → List (String × List Expr) → List (List Val) → List (List Val) → List (List Val)

/-! ## Scopes -/

/-- a source of rows as names see it -/
structure Source where
  aliasName : String
  db : String
  catalog : String
  cols : List String
deriving DecidableEq

abbrev Frame := List Source

/-- the names in scope: `WITH` entries, and the sources of the enclosing selects from the inside out -/
structure Static where
  ctes : List (String × List String)
  frames : List Frame

/-- the rows behind those names -/
structure Dyn where
  ctes : List (String × List Row)
  frames : List (Env ℕ Row)

/-- a resolved column: the frame, the source and the name -/
structure Slot where
  depth : ℕ
  idx : ℕ
  col : String
deriving DecidableEq

def Source.agrees (s : Source) (r : ColumnRef) : Bool :=
  (r.db = "" || sameName r.db s.db) && (r.catalog = "" || sameName r.catalog s.catalog)

/-- the positions of the sources that satisfy a predicate -/
def indicesOf (p : Source → Bool) (f : Frame) : List ℕ := (List.range f.length).filter fun i => f[i]?.any p

/-- one frame's answer for a column: not here, an error, or a source -/
inductive Found where
  | no
  | error
  | at (i : ℕ)
deriving DecidableEq

/-- look a column up in one frame -/
def lookupFrame (f : Frame) (r : ColumnRef) : Found :=
  if r.table = "" then
    match indicesOf (fun s => hasCol s.cols r.name) f with
    | [] => .no
    | [i] => .at i
    | _ => .error
  else
    match f.findIdx? fun s => sameName s.aliasName r.table with
    | none => .no
    | some i => if f[i]?.any fun s => s.agrees r && hasCol s.cols r.name then .at i else .error

/-- look a column up from the innermost frame outwards -/
def resolve : List Frame → ColumnRef → Option Slot
  | [], _ => none
  | f :: fs, r =>
    match lookupFrame f r with
    | .at i => some ⟨0, i, r.name⟩
    | .error => none
    | .no => (resolve fs r).map fun s => { s with depth := s.depth + 1 }

def Dyn.value (δ : Dyn) (s : Slot) : Val :=
  match δ.frames[s.depth]? with
  | none => .null
  | some e => Row.getOr (e s.idx) s.col

def Static.push (Γ : Static) (f : Frame) : Static := { Γ with frames := f :: Γ.frames }

def Dyn.push (δ : Dyn) (e : Env ℕ Row) : Dyn := { δ with frames := e :: δ.frames }

def Static.cte? (Γ : Static) (n : String) : Option (List String) :=
  (Γ.ctes.find? fun e => sameName e.1 n).map Prod.snd

/-- a table node that names a `WITH` entry in scope -/
def isCteRef (scope : List String) (t : TableNode) : Bool :=
  t.db = "" && t.catalog = "" && scope.any fun n => sameName n t.name

def Dyn.cte (δ : Dyn) (n : String) : List Row := ((δ.ctes.find? fun e => sameName e.1 n).map Prod.snd).getD []

def Static.addCte (Γ : Static) (n : String) (cols : List String) : Static :=
  { Γ with ctes := (n, cols) :: Γ.ctes }

def Dyn.addCte (δ : Dyn) (n : String) (rows : List Row) : Dyn := { δ with ctes := (n, rows) :: δ.ctes }

/-! ## Denotations -/

/-- the columns of a query, and its rows for the rows of the enclosing queries -/
structure Den where
  cols : List String
  rows : Dyn → List Row

/-- the meaning of a query in a static scope -/
abbrev Meaning := Static → Option Den

/-- the tables and the bracketed texts a query may read -/
structure World where
  table : TableNode → Option Table
  raw : String → Option Table

section Expressions

variable (I : Interp)

/-- the value of a node from the values of its arguments, once columns and subqueries are known -/
def nodeValue (col : ColumnRef → Val) (sub : ℕ → List (List Val)) : Node → List Cell → Cell
  | .column r, _ => .val (col r)
  | .star, _ => .val .null
  | .literal v, _ => .val v
  | .sub i, _ => .rows (sub i)
  | .and, [l, r] => .val (.ofTruth (and3 l.truth r.truth))
  | .and, cs => .val (I.op "And" cs)
  | .paren, [c] => c
  | .paren, cs => .val (I.op "Paren" cs)
  | .op cls, cs => .val (I.op cls cs)

/-- the value of an expression -/
def evalExpr (col : ColumnRef → Val) (sub : ℕ → List (List Val)) (e : Expr) : Cell :=
  e.fold (nodeValue I col sub)

/-- the condition holds: it is true, not false or unknown -/
def holds (col : ColumnRef → Val) (sub : ℕ → List (List Val)) (e : Expr) : Bool :=
  (evalExpr I col sub e).truth = some true

end Expressions

/-- every column and subquery of an expression has a meaning -/
def wellScoped (subs : List Meaning) (Γ : Static) (e : Expr) : Bool :=
  e.labels.all fun n =>
    match n with
    | .column r => (resolve Γ.frames r).isSome
    | .sub i => (subs[i]?.bind fun m => m Γ).isSome
    | _ => true

def colValue (Γ : Static) (δ : Dyn) (r : ColumnRef) : Val := ((resolve Γ.frames r).map δ.value).getD .null

/-- the rows of a subquery -/
def subValue (subs : List Meaning) (Γ : Static) (δ : Dyn) (i : ℕ) : List (List Val) :=
  ((subs[i]?.bind fun m => m Γ).map fun d => (d.rows δ).map Row.vals).getD []

/-- the truth of a condition; an absent one is true -/
def condTrue (I : Interp) (subs : List Meaning) (Γ : Static) (δ : Dyn) (e : Option Expr) : Bool :=
  e.all fun e => holds I (colValue Γ δ) (subValue subs Γ δ) e

/-! ## Sources -/

/-- the names and the rows of a source; a name without schema is looked up among the `WITH` entries first -/
def elabSource (W : World) (subs : List Meaning) (Γ : Static) : FromItem → Option (Source × (Dyn → List Row))
  | .table t =>
    match (if t.db = "" ∧ t.catalog = "" then Γ.cte? t.name else none) with
    | some cols => some (⟨t.aliasOrName, "", "", cols⟩, fun δ => δ.cte t.name)
    | none =>
      (W.table t).map fun T =>
        (⟨t.aliasOrName, if t.asName = "" then t.db else "", if t.asName = "" then t.catalog else "", T.cols⟩,
          fun _ => T.rows)
  | .derived i a => (subs[i]?.bind fun m => m Γ).map fun d => (⟨a, "", "", d.cols⟩, d.rows)
  | .raw sql a => (W.raw sql).map fun T => (⟨a, "", "", T.cols⟩, fun _ => T.rows)

/-- the aliases of a frame differ up to case -/
def distinctAliases (f : Frame) : Bool := (f.map fun s => lower s.aliasName).Nodup

/-- how each source of a select is joined: the first one unconditionally -/
def onConds (s : Select) : List (Kind × Option Expr) :=
  (s.source.toList.map fun _ => (Kind.inner, none)) ++ s.joins.map fun j => (j.side, j.on)

/-- the sources joined by the `n`-th step and before it -/
def Static.pushUpTo (Γ : Static) (frame : Frame) (n : ℕ) : Static := Γ.push (frame.take (n + 1))

/-- the join chain of a select: one step for each source, whose condition sees the sources up to it -/
def joinSteps (I : Interp) (subs : List Meaning) (Γ : Static) (δ : Dyn) (frame : Frame)
    (chain : List ((Dyn → List Row) × Kind × Option Expr)) : List (Step ℕ Row) :=
  chain.zipIdx.map fun c =>
    ⟨c.2, c.1.1 δ, c.1.2.1, fun e => condTrue I subs (Γ.pushUpTo frame c.2) (δ.push e) c.1.2.2⟩

/-! ## Select lists -/

def blankRef : ColumnRef := ⟨"", "", "", ""⟩

/-- an expression with its columns erased -/
def Expr.shape (e : Expr) : Expr := e.mapColumns fun _ => blankRef

/-- a leaf of a select list or clause -/
inductive Leaf where
  | slot (s : Slot)
  | sub (i : ℕ)
  | output (name : String)
deriving DecidableEq

def Leaf.cell (subs : List Meaning) (Γ : Static) (δ : Dyn) : Leaf → Cell
  | .slot s => .val (δ.value s)
  | .sub i => .rows (subValue subs Γ δ i)
  | .output n => .output n

/-- an element of a select list, expanded: its output name, its shape and its leaves -/
structure OutCol where
  name : String
  shape : Expr
  leaves : List Leaf

/-- the leaf of a node, if it is one; `outputs` are the names a clause may mention, before the sources' or after -/
def leafOf (subs : List Meaning) (Γ : Static) (outputs : List String) (outputsFirst : Bool) :
    Node → Option (List Leaf)
  | .column r =>
    let out : Option (List Leaf) :=
      if r.table = "" ∧ hasCol outputs r.name then some [.output (lower r.name)] else none
    let slot := (resolve Γ.frames r).map fun s => [Leaf.slot s]
    if outputsFirst then out.orElse fun _ => slot else slot.orElse fun _ => out
  | .sub i => (subs[i]?.bind fun m => m Γ).map fun _ => [.sub i]
  | _ => some []

/-- the leaves of an expression -/
def leavesOf (subs : List Meaning) (Γ : Static) (outputs : List String) (outputsFirst : Bool) (e : Expr) :
    Option (List Leaf) :=
  (e.labels.mapM (leafOf subs Γ outputs outputsFirst)).map List.flatten

/-- all columns of the `i`-th source -/
def starOf (i : ℕ) (s : Source) : List OutCol :=
  s.cols.map fun c => ⟨c, Expr.column blankRef, [.slot ⟨0, i, c⟩]⟩

/-- the output name of an expression without alias -/
def defaultName (e : Expr) : String :=
  match e.label with
  | .column r => r.name
  | _ => ""

def elabItem (subs : List Meaning) (Γ : Static) (frame : Frame) : Item → Option (List OutCol)
  | .star => some ((frame.zipIdx).flatMap fun e => starOf e.2 e.1)
  | .tableStar r =>
    match frame.findIdx? fun s => sameName s.aliasName r.table with
    | none => none
    | some i => if frame[i]?.any fun s => s.agrees r then frame[i]?.map (starOf i) else none
  | .expr e a =>
    (leavesOf subs Γ [] false e).map fun ls => [⟨if a = "" then defaultName e else a, e.shape, ls⟩]

/-- the leaves of a clause; `ORDER BY` looks at the select list first, the others at the sources first -/
def clauseLeaves (subs : List Meaning) (Γ : Static) (outputs : List String) (c : String × List Expr) :
    Option (List Leaf) :=
  (c.2.mapM (leavesOf subs Γ outputs (c.1 = "order"))).map List.flatten

def elabRest (subs : List Meaning) (Γ : Static) (outputs : List String) (rest : List (String × List Expr)) :
    Option (List Leaf) :=
  (rest.mapM (clauseLeaves subs Γ outputs)).map List.flatten

/-- a select list of plain columns with no further clause -/
def isProjection (outs : List OutCol) (rest : List (String × List Expr)) : Bool :=
  rest.isEmpty && outs.all fun o => o.shape.label = .column blankRef

def shapeRest (rest : List (String × List Expr)) : List (String × List Expr) :=
  rest.map fun c => (c.1, c.2.map Expr.shape)

/-- the value of a cell in a projected row -/
def Cell.toVal : Cell → Val
  | .val v => v
  | _ => .null

/-- the rows of a select from the leaf values of the rows that passed `WHERE` -/
def finishRows (I : Interp) (outs : List OutCol) (rest : List (String × List Expr)) (cells : List (List Cell)) :
    List Row :=
  let vals :=
    if isProjection outs rest then cells.map fun l => l.map Cell.toVal
    else I.finish ⟨outs.map OutCol.shape, shapeRest rest⟩ cells
  vals.map fun l => (outs.map OutCol.name).zip l

/-! ## Queries -/

/-- enter the `WITH` list of a body: the extended scope, the extended rows, and the remaining children -/
def elabCtes : List String → List Meaning → Static → Option (Static × (Dyn → Dyn) × List Meaning)
  | [], ms, Γ => some (Γ, id, ms)
  | _ :: _, [], _ => none
  | n :: ns, m :: ms, Γ => do
    let d ← m Γ
    let (Γ', k, rest) ← elabCtes ns ms (Γ.addCte n d.cols)
    return (Γ', fun δ => k (δ.addCte n (d.rows δ)), rest)

/-- the names of a select, resolved: its sources, its select list and the leaves of its clauses -/
structure Parts where
  sources : List (Source × (Dyn → List Row))
  outs : List OutCol
  restLeaves : List Leaf

def Parts.frame (p : Parts) : Frame := p.sources.map Prod.fst

def Parts.leaves (p : Parts) : List Leaf := p.outs.flatMap OutCol.leaves ++ p.restLeaves

def selectParts (W : World) (s : Select) (subs : List Meaning) (Γ : Static) : Option Parts := do
  let sources ← s.sources.mapM (elabSource W subs Γ)
  let frame := sources.map Prod.fst
  let outs ← s.items.mapM (elabItem subs (Γ.push frame) frame)
  let restLeaves ← elabRest subs (Γ.push frame) (outs.flatten.map OutCol.name) s.rest
  return ⟨sources, outs.flatten, restLeaves⟩

/-- the aliases differ and the conditions mention what they see -/
def selectScoped (s : Select) (subs : List Meaning) (Γ : Static) (frame : Frame) : Bool :=
  distinctAliases frame && (onConds s).zipIdx.all (fun c => c.1.2.all (wellScoped subs (Γ.pushUpTo frame c.2))) &&
    s.cond.all (wellScoped subs (Γ.push frame))

/-- the joined rows that pass `WHERE` -/
def keptRows (I : Interp) (s : Select) (subs : List Meaning) (Γ : Static) (p : Parts) (δ : Dyn) :
    List (Env ℕ Row) :=
  (join (joinSteps I subs Γ δ p.frame ((p.sources.map Prod.snd).zip (onConds s)))).filter fun e =>
    condTrue I subs (Γ.push p.frame) (δ.push e) s.cond

def selectRows (I : Interp) (s : Select) (subs : List Meaning) (Γ : Static) (p : Parts) (δ : Dyn) : List Row :=
  finishRows I p.outs s.rest
    ((keptRows I s subs Γ p δ).map fun e => p.leaves.map (Leaf.cell subs (Γ.push p.frame) (δ.push e)))

/-- a select in the scope of its `WITH` list -/
def elabSelect (I : Interp) (W : World) (s : Select) (subs : List Meaning) (Γ : Static) : Option Den := do
  let p ← selectParts W s subs Γ
  if selectScoped s subs Γ p.frame then return ⟨p.outs.map OutCol.name, selectRows I s subs Γ p⟩ else none

def setOpRows (I : Interp) (op : String) (rest : List (String × List Expr)) (l r : Den) (δ : Dyn) : List Row :=
  (I.setOp op rest ((l.rows δ).map Row.vals) ((r.rows δ).map Row.vals)).map fun vs => l.cols.zip vs

/-- the operands and clauses of a set operation in the scope of its `WITH` list; the clauses name output columns -/
def elabSetOp (I : Interp) (op : String) (rest : List (String × List Expr)) (subs : List Meaning) (Γ : Static) :
    Option Den :=
  match subs with
  | [l, r] => do
    let dl ← l Γ
    let dr ← r Γ
    if (rest.flatMap Prod.snd).all fun e => e.columns.all fun c => c.table = "" && c.db = "" && c.catalog = "" then
      return ⟨dl.cols, setOpRows I op rest dl dr⟩
    else none
  | _ => none

/-- the content of a body in the scope of its `WITH` list -/
def elabContent (I : Interp) (W : World) (b : Body) (subs : List Meaning) : Meaning :=
  match b with
  | .select s => elabSelect I W s subs
  | .setOp op _ rest => elabSetOp I op rest subs
  | .wrap =>
    match subs with
    | [m] => m
    | _ => fun _ => none

def elabBody (I : Interp) (W : World) (b : Body) (ms : List Meaning) : Meaning := fun Γ => do
  let (Γ', k, subs) ← elabCtes b.cteNames ms Γ
  let d ← elabContent I W b subs Γ'
  return ⟨d.cols, fun δ => d.rows (k δ)⟩

def denote (I : Interp) (W : World) (q : Query) : Meaning := q.fold (elabBody I W)

/-- the result of a query that stands alone -/
def run (I : Interp) (W : World) (q : Query) : Option Table :=
  (denote I W q ⟨[], []⟩).map fun d => ⟨d.cols, d.rows ⟨[], []⟩⟩

end Langbridge.Federation.Sql
