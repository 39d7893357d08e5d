/-
Rewriting a query onto the outputs of its scans (`federation/planner/sql_renderer.py`): every table that has a stage
becomes that stage under the table's alias, and column qualifiers become aliases.

`render_local_stage_sql` also renames functions between dialects; operators keep their meaning here, so that step is
the identity.
-/
import Langbridge.Federation.Parser

namespace Langbridge.Federation

open Core Federation.Sql PyText

variable [PyText]

/-- the names `_build_table_alias_lookup` records for one table: normalised key and alias -/
def aliasKeys (t : TableNode) : List (String × String) :=
  let aliasName := strip t.aliasOrName
  let name := strip t.name
  let schema := strip t.db
  let catalog := strip t.catalog
  if aliasName = "" then []
  else
    ([aliasName, name] ++ (if schema ≠ "" ∧ name ≠ "" then [schema ++ "." ++ name] else []) ++
      if catalog ≠ "" ∧ schema ≠ "" ∧ name ≠ "" then [catalog ++ "." ++ schema ++ "." ++ name] else []).filterMap
      fun key => if norm key = "" then none else some (norm key, aliasName)

/-- `_build_table_alias_lookup`: the alias of a key that names only one -/
def aliasLookup (q : Query) (key : String) : Option String :=
  match (((q.tables.flatMap aliasKeys).filter fun e => e.1 = key).map Prod.snd).dedup with
  | [a] => some a
  | _ => none

/-- the keys a column qualifier is looked up under, in order -/
def qualifierKeys (c : ColumnRef) : List String :=
  let table := strip c.table
  let schema := strip c.db
  let catalog := strip c.catalog
  (if table ≠ "" then [table] else []) ++
    (if schema ≠ "" ∧ table ≠ "" then [schema ++ "." ++ table] else []) ++
    if catalog ≠ "" ∧ schema ≠ "" ∧ table ≠ "" then [catalog ++ "." ++ schema ++ "." ++ table] else []

def rewriteColumnForStage (stageTables : Dict String String) (lookup : String → Option String) (c : ColumnRef) :
    ColumnRef :=
  let table := strip c.table
  let resolved : Option String :=
    match (qualifierKeys c).findSome? fun key => lookup (norm key) with
    | some a => some a
    | none => if table ≠ "" ∧ stageTables.has table then some table else none
  { c with table := resolved.getD c.table, db := "", catalog := "" }

def rewriteTableForStage (stageTables : Dict String String) (t : TableNode) : TableNode :=
  match stageTables.get? t.aliasOrName with
  | none => t
  | some stage => ⟨stage, "", "", t.aliasOrName⟩

/-- `rewrite_tables_to_stage_expression` -/
def rewriteTablesToStage (q : Query) (stageTables : Dict String String) : Query :=
  q.mapRefs (rewriteColumnForStage stageTables (aliasLookup q)) (rewriteTableForStage stageTables)

end Langbridge.Federation
