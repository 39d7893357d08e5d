/-
The value of predicates: it depends on the values of the predicate's own columns and subqueries, a conjunction holds
when its conjuncts do, and neither splitting a `WHERE` clause nor joining filters back with `exp.and_` changes what
holds. `rowHolds` is a predicate on one row of one table, as a scan evaluates it.
-/
import Langbridge.Federation.Semantics
import Langbridge.Federation.Optimizer

namespace Langbridge.Federation

open Core Federation.Sql List

section Eval

variable (I : Interp)

/-- an expression's value is determined by its columns and subqueries -/
theorem evalExpr_congr (col col' : ColumnRef → Val) (sub sub' : ℕ → List (List Val)) (e : Expr)
    (hc : ∀ r ∈ e.columns, col r = col' r) (hs : ∀ i, Node.sub i ∈ e.labels → sub i = sub' i) :
    evalExpr I col sub e = evalExpr I col' sub' e := by
  refine Rose.fold_congr _ _ e fun n hn cs => ?_
  cases n with
  | column r => simp only [nodeValue, hc r ((Expr.mem_columns e r).2 hn)]
  | sub i => simp only [nodeValue, hs i hn]
  | and => rcases cs with _ | ⟨a, _ | ⟨b, _ | ⟨c, cs⟩⟩⟩ <;> rfl
  | paren => rcases cs with _ | ⟨a, _ | ⟨b, cs⟩⟩ <;> rfl
  | _ => rfl

/-- rewriting the columns of an expression is looking the rewritten columns up -/
theorem evalExpr_mapColumns (f : ColumnRef → ColumnRef) (col : ColumnRef → Val) (sub : ℕ → List (List Val))
    (e : Expr) : evalExpr I col sub (e.mapColumns f) = evalExpr I (fun r => col (f r)) sub e := by
  rw [evalExpr, Expr.mapColumns, Rose.fold_map, evalExpr]
  refine Rose.fold_congr _ _ e fun n _ cs => ?_
  cases n with
  | and => rcases cs with _ | ⟨a, _ | ⟨b, _ | ⟨c, cs⟩⟩⟩ <;> rfl
  | paren => rcases cs with _ | ⟨a, _ | ⟨b, cs⟩⟩ <;> rfl
  | _ => rfl

variable (col : ColumnRef → Val) (sub : ℕ → List (List Val))

theorem holds_and (l r : Expr) :
    holds I col sub (.node .and [l, r]) = (holds I col sub l && holds I col sub r) := by
  have hv : (evalExpr I col sub (.node .and [l, r])).truth =
      and3 (evalExpr I col sub l).truth (evalExpr I col sub r).truth := by
    exact Val.truth_ofTruth _
  rw [Bool.eq_iff_iff, Bool.and_eq_true]
  simp only [holds, hv, and3_eq_true, decide_eq_true_eq]

theorem evalExpr_paren (e : Expr) : evalExpr I col sub (.node .paren [e]) = evalExpr I col sub e := by
  simp only [evalExpr, Rose.fold_node, map_cons, map_nil, nodeValue]

theorem holds_wrapConnector (e : Expr) : holds I col sub (wrapConnector e) = holds I col sub e := by
  have hp : holds I col sub (.node .paren [e]) = holds I col sub e := by
    rw [holds, evalExpr_paren, holds]
  rw [wrapConnector]
  split
  · exact hp
  · exact hp
  · rfl

/-- a condition holds when each of its conjuncts does -/
theorem holds_splitConjunctive (e : Expr) :
    holds I col sub e = (splitConjunctive e).all (holds I col sub) := by
  fun_induction splitConjunctive e with
  | case1 l r ihl ihr => rw [holds_and, all_append, ihl, ihr]
  | case2 e h => simp

/-- filters joined with `exp.and_` hold when each of them does -/
theorem holds_andAll (l : List Expr) : (andAll l).all (holds I col sub) = l.all (holds I col sub) := by
  have hfold : ∀ (es : List Expr) (acc : Expr),
      holds I col sub (es.foldl (fun acc x => Expr.and acc (wrapConnector x)) acc) =
        (holds I col sub acc && es.all (holds I col sub)) := by
    intro es
    induction es with
    | nil => simp
    | cons e es ih =>
      intro acc
      rw [foldl_cons, ih, Expr.and, holds_and, holds_wrapConnector, all_cons, Bool.and_assoc]
  match l with
  | [] => rfl
  | [e] => simp [andAll]
  | e :: e' :: es => simp only [andAll, Option.all_some, hfold, holds_wrapConnector, all_cons]

/-- what holds of the labels of the filters, of `AND` and of parentheses holds of the labels of their conjunction -/
theorem andAll_labels (p : Node → Bool) (hand : p .and = true) (hparen : p .paren = true) (l : List Expr)
    (hl : ∀ e ∈ l, e.labels.all p = true) : (andAll l).all (fun e => e.labels.all p) = true := by
  have hwrap : ∀ e : Expr, e.labels.all p = true → (wrapConnector e).labels.all p = true := by
    intro e he
    have hp : (Rose.node Node.paren [e]).labels.all p = true := by
      simp only [Rose.labels_node, map_cons, map_nil, flatten_cons, flatten_nil,
        append_nil, all_cons, hparen, he, Bool.and_self]
    rw [wrapConnector]
    split
    · exact hp
    · exact hp
    · exact he
  have hfold : ∀ (es : List Expr) (acc : Expr), (∀ e ∈ es, e.labels.all p = true) → acc.labels.all p = true →
      (es.foldl (fun acc x => Expr.and acc (wrapConnector x)) acc).labels.all p = true := by
    intro es
    induction es with
    | nil => exact fun acc _ h => h
    | cons e es ih =>
      intro acc hes hacc
      refine ih _ (fun x hx => hes x (mem_cons_of_mem e hx)) ?_
      simp only [Expr.and, Rose.labels_node, map_cons, map_nil, flatten_cons, flatten_nil,
        append_nil, all_cons, all_append, hand, hacc, hwrap e (hes e mem_cons_self),
        Bool.and_self]
  match l, hl with
  | [], _ => rfl
  | [e], hl => exact hl e mem_cons_self
  | e :: e' :: es, hl =>
    exact hfold _ _ (fun x hx => hl x (mem_cons_of_mem e hx)) (hwrap e (hl e mem_cons_self))

end Eval

/-! ## A predicate on one row -/

section RowHolds

variable [PyText] (I : Interp)

/-- the predicate is true when every column is read from `row` -/
def rowHolds (row : Option Row) (e : Expr) : Bool := holds I (fun r => Row.getOr row r.name) (fun _ => []) e

/-- a predicate without subqueries whose columns are all read from one row -/
theorem holds_eq_rowHolds (col : ColumnRef → Val) (sub : ℕ → List (List Val)) (row : Option Row) (e : Expr)
    (hs : e.hasSub = false) (hc : ∀ r ∈ e.columns, col r = Row.getOr row r.name) :
    holds I col sub e = rowHolds I row e := by
  have hv : evalExpr I col sub e = evalExpr I (fun r => Row.getOr row r.name) (fun _ => []) e := by
    refine evalExpr_congr I _ _ _ _ e hc fun i hi => ?_
    have hany : e.hasSub = true := any_eq_true.2 ⟨_, hi, rfl⟩
    rw [hs] at hany
    cases hany
  rw [rowHolds, holds, hv, holds]

/-- the rows a scan with these filters keeps -/
def passesFilters (filters : List Expr) (row : Row) : Bool := filters.all (rowHolds I (some row))

end RowHolds

end Langbridge.Federation
