/-
Semantic models (`semantic/model.py`): datasets under their keys, each with dimensions, measures and filters, the
relationships between them and the metrics over them. Descriptions, synonyms and vector settings, which the query
compiler does not read, are left out.
-/
import Langbridge.Semantic.JoinPlanner

namespace Langbridge.Semantic

open Core

structure Dimension where
  name : String
  expression : Option String
  type : String
  aliasName : Option String
deriving DecidableEq

structure Measure where
  name : String
  expression : Option String
  type : String
  aggregation : Option String
deriving DecidableEq

structure DatasetFilter where
  condition : String
deriving DecidableEq

structure Dataset where
  relationName : Option String
  schemaName : Option String
  catalogName : Option String
  dimensions : Option (List Dimension)
  measures : Option (List Measure)
  filters : Option (Dict String DatasetFilter)

structure Metric where
  expression : String
deriving DecidableEq

structure SemanticModel where
  datasets : Dict String Dataset
  relationships : Option (List Relationship)
  metrics : Option (Dict String Metric)

structure SemanticModelError where
  message : String
deriving DecidableEq

def Dataset.getRelationName [PyText] (d : Dataset) (datasetKey : String) : String :=
  let candidate := PyText.strip (d.relationName.getD "")
  if candidate = "" then datasetKey else candidate

def orElse (a : Option String) (b : String) : String :=
  match a with
  | some text => if text = "" then b else text
  | none => b

end Langbridge.Semantic
