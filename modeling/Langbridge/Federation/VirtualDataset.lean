/-
Virtual datasets (`federation/models/virtual_dataset.py`): the tables a federated query may name, each bound to a
relation of one source. `relation` is the relation the scan of a binding reads, as `_build_scan_sql` chooses it.
-/
import Langbridge.Core.Dict
import Langbridge.Core.Json
import Langbridge.Federation.Sql

namespace Langbridge.Federation

open Core Federation.Sql PyText

/-- `DatasetFreshnessPolicy` -/
inductive FreshnessPolicy where
  | revision
  | volatile
  | unknown
deriving DecidableEq

/-- a text that is empty after stripping, or absent (`not str(value or "").strip()`) -/
def isBlank [PyText] (s : Option String) : Bool := strip (s.getD "") = ""

/-- `DatasetFreshnessDescriptor`; a revision-backed one has a key -/
structure FreshnessDescriptor [PyText] where
  policy : FreshnessPolicy
  freshnessKey : Option String
  revisionId : Option String
  reason : Option String
  keyed : policy = .revision → isBlank freshnessKey = false

/-- what the stage cache reads of `DatasetExecutionDescriptor` -/
structure DatasetDescriptor [PyText] where
  datasetId : Option String
  name : Option String
  materializationMode : Option String
  relationIdentity : Dict String Json
  freshness : Option FreshnessDescriptor

/-- `VirtualTableBinding` -/
structure VirtualTableBinding [PyText] where
  tableKey : String
  sourceId : String
  connectorId : Option String
  schemaName : Option String
  table : String
  catalog : Option String
  metadata : Dict String Json
  descriptor : Option DatasetDescriptor

/-- `VirtualDataset` -/
structure VirtualDataset [PyText] where
  id : String
  tables : Dict String VirtualTableBinding
  nonempty : tables.entries ≠ []

variable [PyText]

namespace VirtualDataset

/-- `virtual_tables`: the bindings under their lower-case keys -/
def virtualTables (vd : VirtualDataset) : Dict String VirtualTableBinding :=
  Dict.ofList (vd.tables.entries.map fun e => (lower e.1, e.2))

end VirtualDataset

namespace VirtualTableBinding

/-- `metadata.get(key, default)`: a present key wins even when its value is `None` -/
def metadataGet (b : VirtualTableBinding) (key : String) (dflt : Option String) : Json :=
  (b.metadata.get? key).getD ((dflt.map Json.str).getD .null)

def physicalCatalog (b : VirtualTableBinding) : Json := b.metadataGet "physical_catalog" b.catalog

def physicalSchema (b : VirtualTableBinding) : Json := b.metadataGet "physical_schema" b.schemaName

def physicalTable (b : VirtualTableBinding) : Json := b.metadataGet "physical_table" (some b.table)

/-- `bool(metadata.get("skip_catalog_in_pushdown"))` -/
def skipCatalog (b : VirtualTableBinding) : Bool := (b.metadataGet "skip_catalog_in_pushdown" none).truthy

/-- the trimmed `physical_sql` without its closing semicolons, when it is a text that is not blank -/
def physicalSql? (b : VirtualTableBinding) : Option String :=
  match b.metadata.get? "physical_sql" with
  | some (.str s) =>
    if strip s = "" then none
    else some (String.ofList ((strip s).toList.reverse.dropWhile (· = ';')).reverse)
  | _ => none

end VirtualTableBinding

/-- a part of a relation's name: absent when its value is falsy (`value or None`) -/
def namePart (v : Json) : String := if v.truthy then v.text else ""

/-- what a source can be asked for -/
inductive Relation where
  | query (sql : String)
  | table (name schema catalog : String)
deriving DecidableEq

/-- the relation of a source that the scan of a binding reads -/
def VirtualTableBinding.relation (b : VirtualTableBinding) : Relation :=
  match b.physicalSql? with
  | some sql => .query sql
  | none =>
    .table (namePart b.physicalTable) (namePart b.physicalSchema)
      (namePart (if b.skipCatalog then .null else b.physicalCatalog))

end Langbridge.Federation
