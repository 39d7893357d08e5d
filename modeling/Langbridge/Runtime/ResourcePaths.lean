/-
Resource paths of API datasets (`connectors/base/resource_paths.py`): the records of a root resource become the rows
of a path below it, one row for each value the path reaches, with the identity of its parent.

`materializeApiResourceRows` walks the path segment by segment (`descend`) and makes a row of every value it ends at,
nested objects being flattened into columns where the dataset asks for it.
-/
import Langbridge.Core.Dict
import Langbridge.Core.Json

namespace Langbridge.Runtime

open Core List PyText

/-- a row of a dataset -/
abbrev Row := Dict String Json

/-- what reading a resource path can raise -/
inductive PathError where
  | emptyPath
  | missing (stepPath : String)
  | inconsistent (stepPath : String)
  | manyChild (flattenPath : String)
  | unhashable
deriving DecidableEq

/-- the texts of the errors -/
def PathError.message : PathError → String
  | .emptyPath => "API resource path must not be empty."
  | .missing p => "API resource path '" ++ p ++ "' does not exist in the extracted records."
  | .inconsistent p => "API resource path '" ++ p ++ "' is structurally inconsistent across records."
  | .manyChild p => "API flatten path '" ++ p ++ "' cannot flatten a one-to-many child."
  | .unhashable => "unhashable type"

/-- `ApiResourceCardinality` -/
inductive Cardinality where
  | one
  | many
deriving DecidableEq

section Paths

variable [PyText]

/-- the trimmed segments of a path that are not empty -/
def segments (path : String) : List String :=
  ((path.toList.splitOn '.').map fun s => strip (String.ofList s)).filter (· ≠ "")

def normalizeApiResourcePath (path : String) : Except PathError String :=
  if segments path = [] then .error .emptyPath else .ok (".".intercalate (segments path))

def apiResourceRoot (path : String) : Except PathError String :=
  (normalizeApiResourcePath path).map fun n => String.ofList (n.toList.takeWhile (· ≠ '.'))

/-- `normalize_api_flatten_paths`: the normalised paths without repetitions -/
def normalizeApiFlattenPaths (paths : List String) : Except PathError (List String) :=
  (paths.mapM normalizeApiResourcePath).map fun ps => (ps.foldl (fun acc p => if p ∈ acc then acc else acc ++ [p]) [])

end Paths

theorem sep_not_mem_of_mem_splitOn {α : Type} [DecidableEq α] (sep : α) (l part : List α) (h : part ∈ l.splitOn sep) :
    sep ∉ part := by
  rw [List.splitOn] at h
  induction l generalizing part with
  | nil =>
    rw [splitOnP_nil, mem_singleton] at h
    rw [h]
    exact not_mem_nil
  | cons x l ih =>
    rw [splitOnP_cons_eq_if_modifyHead] at h
    split_ifs at h with hx
    · rcases mem_cons.1 h with rfl | h
      · exact not_mem_nil
      · exact ih part h
    · -- the first part begins with `x`
      obtain ⟨head, tail, hparts⟩ := exists_cons_of_ne_nil (splitOnP_ne_nil (· == sep) l)
      rw [hparts] at h ih
      rw [modifyHead_cons, mem_cons] at h
      rcases h with rfl | h
      · intro hsep
        rcases mem_cons.1 hsep with rfl | hsep
        · exact hx (beq_self_eq_true sep)
        · exact ih head mem_cons_self hsep
      · exact ih part (mem_cons_of_mem head h)

section Normalised

variable [PyTrim]

theorem dot_not_mem_segment (path segment : String) (h : segment ∈ segments path) : '.' ∉ segment.toList := by
  obtain ⟨hmem, _⟩ := mem_filter.1 h
  obtain ⟨part, hpart, rfl⟩ := mem_map.1 hmem
  intro hdot
  have hmem' : '.' ∈ (String.ofList part).toList := PyTrim.mem_strip _ _ hdot
  rw [String.toList_ofList] at hmem'
  exact sep_not_mem_of_mem_splitOn '.' path.toList part hpart hmem'

theorem segment_trimmed (path segment : String) (h : segment ∈ segments path) :
    strip segment = segment ∧ segment ≠ "" := by
  obtain ⟨hmem, hne⟩ := mem_filter.1 h
  obtain ⟨part, _, rfl⟩ := mem_map.1 hmem
  exact ⟨PyText.strip_strip _, of_decide_eq_true hne⟩

/-- joining the segments of a path and taking them apart again changes nothing -/
theorem segments_intercalate (path : String) (h : segments path ≠ []) :
    segments (".".intercalate (segments path)) = segments path := by
  have hdots : ∀ l ∈ (segments path).map String.toList, '.' ∉ l := by
    intro l hl
    obtain ⟨segment, hsegment, rfl⟩ := mem_map.1 hl
    exact dot_not_mem_segment path segment hsegment
  have hne : (segments path).map String.toList ≠ [] := by
    rwa [ne_eq, map_eq_nil_iff]
  have hsplit : (".".intercalate (segments path)).toList.splitOn '.' = (segments path).map String.toList := by
    rw [String.toList_intercalate]
    exact splitOn_intercalate '.' hdots hne
  have htrim : (segments path).map ((fun s => strip (String.ofList s)) ∘ String.toList) = segments path := by
    conv_rhs => rw [← List.map_id (segments path)]
    refine map_congr_left fun segment hsegment => ?_
    have hself := (segment_trimmed path segment hsegment).1
    rw [Function.comp_apply, String.ofList_toList, hself, id]
  rw [segments, hsplit, List.map_map, htrim, filter_eq_self]
  intro segment hsegment
  exact decide_eq_true (segment_trimmed path segment hsegment).2

/-- a normalised path is its own normal form -/
theorem normalizeApiResourcePath_self {path normalized : String} (h : normalizeApiResourcePath path = .ok normalized) :
    normalizeApiResourcePath normalized = .ok normalized := by
  rw [normalizeApiResourcePath] at h
  split_ifs at h with hnil
  have hself := segments_intercalate path hnil
  cases h
  rw [normalizeApiResourcePath, hself, if_neg hnil]

/-- a path and its normal form have one root -/
theorem apiResourceRoot_normalized {path normalized : String} (h : normalizeApiResourcePath path = .ok normalized) :
    apiResourceRoot normalized = apiResourceRoot path := by
  rw [apiResourceRoot, apiResourceRoot, h, normalizeApiResourcePath_self h]

end Normalised

/-! ## Walking a path -/

/-- `_TraversalNode` -/
structure TraversalNode where
  value : Json
  parentId : Json
  currentId : Json
  childIndex : Option ℕ

/-- `value in {None, ""}`, which raises on a list or an object -/
def isMissing : Json → Except PathError Bool
  | .null => .ok true
  | .str s => .ok (s = "")
  | .arr _ => .error .unhashable
  | .obj _ => .error .unhashable
  | _ => .ok false

def field (entries : List (String × Json)) (key : String) : Json := (entries.lookup key).getD .null

/-- the node of a record, if it is a mapping -/
def initialNode (primaryKey : Option String) (index : ℕ) : Json → Except PathError (Option TraversalNode)
  | .obj entries => do
    let key := primaryKey.getD ""
    let identity := field entries (if key = "" then "id" else key)
    let missing ← isMissing identity
    return some ⟨.obj entries, .null, if missing then .int index else identity, none⟩
  | _ => .ok none

def initialNodes (primaryKey : Option String) (records : List Json) : Except PathError (List TraversalNode) :=
  (records.zipIdx.mapM fun e => initialNode primaryKey e.2 e.1).map List.reduceOption

def coerceChildIdentity (fallback : Json) : Json → Except PathError Json
  | .obj entries => do
    let missing ← isMissing (field entries "id")
    return if missing then fallback else field entries "id"
  | _ => .ok fallback

/-- the nodes a segment leads to from one node, and how many it may lead to; `none` when the node has no such child -/
def childNodes (segment : String) (node : TraversalNode) : Except PathError (Option (Cardinality × List TraversalNode)) :=
  match node.value with
  | .obj entries =>
    match field entries segment with
    | .null => .ok none
    | .arr items => do
      let nodes ← items.zipIdx.mapM fun e => do
        let identity ← coerceChildIdentity node.currentId e.1
        return (⟨e.1, node.currentId, identity, some e.2⟩ : TraversalNode)
      return some (.many, nodes)
    | child => do
      let identity ← coerceChildIdentity node.currentId child
      return some (.one, [⟨child, node.currentId, identity, none⟩])
  | _ => .ok none

def descend (segment stepPath : String) (nodes : List TraversalNode) :
    Except PathError (List TraversalNode × Cardinality) := do
  let found := (← nodes.mapM (childNodes segment)).reduceOption
  let next := found.flatMap Prod.snd
  let seen := (found.map Prod.fst).dedup
  if next = [] ∧ nodes ≠ [] then throw (.missing stepPath)
  if 1 < seen.length then throw (.inconsistent stepPath)
  return (next, seen.head?.getD .one)

/-! ## Rows -/

/-- `text.replace("__", ".")` -/
def dotted : List Char → List Char
  | '_' :: '_' :: cs => '.' :: dotted cs
  | c :: cs => c :: dotted cs
  | [] => []

section Values

variable [PyText]

mutual

def flattenMapping (fieldPrefix : String) (row : Row) : List (String × Json) → Except PathError Row
  | [] => .ok row
  | (rawKey, value) :: entries =>
    let childName := strip rawKey
    if childName = "" then flattenMapping fieldPrefix row entries
    else
      match flattenValue fieldPrefix (fieldPrefix ++ "__" ++ childName) row value with
      | .error e => .error e
      | .ok row' => flattenMapping fieldPrefix row' entries

def flattenValue (fieldPrefix columnName : String) (row : Row) : Json → Except PathError Row
  | .obj entries => flattenMapping columnName row entries
  | .arr _ => .error (.manyChild (String.ofList (dotted fieldPrefix.toList)))
  | value => .ok (row.set columnName value)

end

def materializeEntry (flattenPaths : List String) (row : Row) (entry : String × Json) : Except PathError Row :=
  let childName := strip entry.1
  if childName = "" then .ok row
  else
    match entry.2 with
    | .obj entries => if childName ∈ flattenPaths then flattenMapping childName row entries else .ok row
    | .arr _ => if childName ∈ flattenPaths then .error (.manyChild childName) else .ok row
    | value => .ok (row.set childName value)

/-- `_materialize_value`, at the top of a selected value -/
def materializeValue (flattenPaths : List String) : Json → Except PathError Row
  | .obj entries => entries.foldlM (materializeEntry flattenPaths) Dict.empty
  | value => .ok (Dict.empty.set "value" value)

def nodeRow (flattenPaths : List String) (nested : Bool) (node : TraversalNode) : Except PathError Row := do
  let row ← materializeValue flattenPaths node.value
  if nested then
    let row := row.set "_parent_id" node.parentId
    return match node.childIndex with
      | none => row
      | some i => row.set "_child_index" (.int i)
  else return row

/-- `ApiMaterializedRows` -/
structure MaterializedRows where
  resourcePath : String
  rootResource : String
  cardinality : Cardinality
  rows : List Row

/-- the segments of a normalised path below its root -/
def relativeSegments (normalized : String) : List String :=
  ((normalized.toList.splitOn '.').map String.ofList).tail

/-- the walk along the segments; `done` are those behind it -/
def walk (root : String) : List String → List String → List TraversalNode × Cardinality →
    Except PathError (List TraversalNode × Cardinality)
  | _, [], acc => .ok acc
  | done, segment :: rest, acc => do
    let acc ← descend segment (".".intercalate (root :: (done ++ [segment]))) acc.1
    walk root (done ++ [segment]) rest acc

def materializeApiResourceRows (resourcePath : String) (records : List Json) (primaryKey : Option String)
    (flatten : List String) : Except PathError MaterializedRows := do
  let normalized ← normalizeApiResourcePath resourcePath
  let flattenPaths ← normalizeApiFlattenPaths flatten
  let root ← apiResourceRoot normalized
  let relative := relativeSegments normalized
  let nodes ← initialNodes primaryKey records
  let (nodes, cardinality) ← walk root [] relative (nodes, .many)
  let rows ← nodes.mapM (nodeRow flattenPaths (relative ≠ []))
  return ⟨normalized, root, cardinality, rows⟩

end Values

/-- a path and its normal form give one list of rows -/
theorem materializeApiResourceRows_normalized [PyTrim] {path normalized : String} (records : List Json)
    (primaryKey : Option String) (flatten : List String) (h : normalizeApiResourcePath path = .ok normalized) :
    materializeApiResourceRows normalized records primaryKey flatten =
      materializeApiResourceRows path records primaryKey flatten := by
  rw [materializeApiResourceRows, materializeApiResourceRows, h, normalizeApiResourcePath_self h]

end Langbridge.Runtime
