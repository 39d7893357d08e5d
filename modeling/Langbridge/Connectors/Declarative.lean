/-
Manifest-driven API connectors (`connectors/saas/declarative/runtime.py`): the parameters of a request, the filter on the
incremental cursor and the cursor of the next page, put together in `extractResource`. The remote is a parameter, and so
is what the connector uses of Python's numbers, dates and URLs (`PyCursors`).
-/
import Mathlib.Data.String.Basic
import Langbridge.Runtime.ApiSync

namespace Langbridge.Connectors

open Core
open Langbridge.Runtime

/-- Python's numbers, dates and URLs; `none` raises `ValueError` -/
class PyCursors extends PyText where
  isdigit : String → Bool
  /-- `int(text)` -/
  int : String → Option ℤ
  /-- `int(value)` of a float -/
  trunc : String → Option ℤ
  /-- `datetime.fromisoformat` in UTC, which is also the zone of a text without one, in microseconds -/
  fromisoformat : String → Option ℤ
  isoformat : ℤ → String
  /-- `parse_qs(urlparse(url).query).get(name)` -/
  queryValues : String → String → List String
  strip_nat : ∀ n : ℕ, strip (toString n) = toString n
  int_nat : ∀ n : ℕ, int (toString n) = some (n : ℤ)

namespace Decimal

/-- the number that decimal digits write -/
def decimal (s : String) : Option ℤ :=
  if s ≠ "" && s.toList.all Char.isDigit then some (Nat.ofDigitChars 10 s.toList 0) else none

theorem strip_repr (n : ℕ) : Ascii.strip (toString n) = toString n :=
  Ascii.strip_of_noSpace _ fun c hc => Ascii.isSpace_of_le (by
    have hbounds := Char.isDigit_iff_toNat.1 (repr_digits n c hc)
    have hzero : '0'.toNat = 48 := rfl
    omega)

theorem decimal_repr (n : ℕ) : decimal (toString n) = some (n : ℤ) := by
  have hne : toString n ≠ "" := Nat.repr_ne_empty
  have hlist : (toString n).toList = Nat.toDigits 10 n := Nat.toList_repr
  rw [decimal, if_pos (by rw [decide_eq_true hne, List.all_eq_true.2 (repr_digits n)]; rfl), hlist,
    Nat.ofDigitChars_ten_toDigits]

open scoped Ascii in
/-- numbers in decimal digits, no dates and no parameters of a URL -/
scoped instance : PyCursors where
  isdigit s := s ≠ "" && s.toList.all Char.isDigit
  int := decimal
  trunc _ := none
  fromisoformat _ := none
  isoformat := toString
  queryValues _ _ := []
  strip_nat := strip_repr
  int_nat := decimal_repr

end Decimal

/-! ## Manifests -/

/-- `DeclarativePaginationConfig` -/
structure PaginationConfig where
  strategy : String
  responseItemsField : String
  limitParam : String
  cursorParam : String
  responseHasMoreField : Option String
  nextCursorField : Option String
  nextCursorSource : String
  responseIsLastField : Option String
  responseTotalField : Option String
  linkHeaderParam : Option String
  defaultPageSize : ℤ
  maxPageSize : ℤ

/-- `DeclarativeIncrementalConfig` -/
structure IncrementalConfig where
  strategy : String
  requestParam : String
  cursorField : String
  cursorType : String

/-- `DeclarativeConnectorResource` -/
structure ConnectorResource where
  key : String
  path : String
  primaryKey : String
  supportsIncremental : Bool
  responseItemsField : Option String
  requestParams : Dict String Json

/-- `DeclarativeConnectorManifest` -/
structure ConnectorManifest where
  id : String
  pagination : PaginationConfig
  incremental : IncrementalConfig
  resources : List ConnectorResource

/-- a JSON object -/
abbrev Record := List (String × Json)

/-- an answer: its payload and its `Link` header -/
structure Response where
  payload : Json
  link : Option String

/-- `_request_json("GET", path, params=params)` -/
abbrev Remote := String → Dict String Json → Except SyncError Response

section Connector

variable [PyCursors]

open PyText (strip norm)

/-! ## Reading payloads -/

def extractSegments : Json → List String → Json
  | current, [] => current
  | current, segment :: segments =>
    if strip segment = "" then extractSegments current segments
    else
      match current with
      | .obj es => extractSegments ((es.lookup (strip segment)).getD .null) segments
      | _ => .null

def extractPath (payload : Json) (fieldPath : Option String) : Json :=
  extractSegments payload (((fieldPath.getD "").toList.splitOn '.').map String.ofList)

def asRecord : Json → Option Record
  | .obj es => some es
  | _ => none

/-- the objects of a list -/
def recordsOf : Json → List Record
  | .arr items => items.filterMap asRecord
  | _ => []

def extractRecords (payload : Json) (fieldPath : String) : List Record :=
  if strip fieldPath = "" then recordsOf payload else recordsOf (extractPath payload fieldPath)

/-- `str(value or "").strip()` -/
def textOr (v : Json) : String := strip (v.orElse (.str "")).text

/-- `value.replace("Z", "+00:00")` -/
def replaceZ (s : String) : String :=
  String.ofList (s.toList.flatMap fun c => if c = 'Z' then "+00:00".toList else [c])

def coerceDatetimeCursor (v : Json) : Option ℤ :=
  if textOr v = "" then none else PyCursors.fromisoformat (replaceZ (textOr v))

/-- an `int(...)` that may raise -/
def raising (o : Option ℤ) : Except SyncError ℤ := o.elim (.error .badCursor) .ok

def coerceNumericCursor : Json → Except SyncError (Option ℤ)
  | .bool _ => .ok none
  | .int i => .ok (some i)
  | .float t => (raising (PyCursors.trunc t)).map some
  | v =>
    if PyCursors.isdigit (textOr v) then (raising (PyCursors.int (textOr v))).map some
    -- `int(parsed.timestamp())`
    else .ok ((coerceDatetimeCursor (.str (textOr v))).map fun t => t.tdiv 1000000)

def normalizedCursor : Json → Option String
  | .null => none
  | v => if strip v.text = "" then none else some (strip v.text)

def truthyFlag : Json → Bool
  | .bool b => b
  | v => PyText.lower (textOr v) ∈ ["1", "true", "yes"]

/-! ## Requests -/

def clampLimit (limit : Option ℤ) (default maximum : ℤ) : ℤ := limit.elim default fun l => max 1 (min l maximum)

/-- the types of a cursor that are read as dates -/
def isDatetime (cursorType : String) : Bool := cursorType ∈ ["iso_datetime", "datetime"]

def normalizeIncrementalValue (rawValue cursorType : String) : Except SyncError String :=
  let normalized := strip rawValue
  if normalized = "" then .ok normalized
  else if cursorType = "unix_timestamp" then
    (coerceNumericCursor (.str normalized)).map fun numeric => numeric.elim normalized toString
  else if isDatetime cursorType then
    .ok ((coerceDatetimeCursor (.str normalized)).elim normalized PyCursors.isoformat)
  else .ok normalized

variable (m : ConnectorManifest)

/-- the parameters that every request for the resource carries -/
def baseParams (resource : ConnectorResource) (limit : Option ℤ) : Dict String Json :=
  resource.requestParams.entries.foldl (fun params e => params.set e.1 e.2)
    (Dict.empty.set m.pagination.limitParam
      (.int (clampLimit limit m.pagination.defaultPageSize m.pagination.maxPageSize)))

def buildRequestParams (resource : ConnectorResource) (since cursor : Option String) (limit : Option ℤ) :
    Except SyncError (Dict String Json) :=
  let params := baseParams m resource limit
  if cursor.getD "" ≠ "" then .ok (params.set m.pagination.cursorParam (.str (cursor.getD "")))
  else if since.getD "" ≠ "" && resource.supportsIncremental && m.incremental.strategy = "request_param" then
    (normalizeIncrementalValue (since.getD "") m.incremental.cursorType).map fun value =>
      params.set m.incremental.requestParam (.str value)
  else .ok params

/-- `int(params.get(limit_param, 0) or 0)` -/
def pageSize (params : Dict String Json) : Except SyncError ℤ :=
  match ((params.get? m.pagination.limitParam).getD (.int 0)).orElse (.int 0) with
  | .bool b => .ok (if b then 1 else 0)
  | .int i => .ok i
  | .float t => raising (PyCursors.trunc t)
  | .str s => raising (PyCursors.int s)
  | _ => .error .badCursor

/-! ## The filter on the incremental cursor -/

/-- what the records of a page are compared with -/
inductive Threshold where
  | none
  | number (n : ℤ)
  | date (t : ℤ)
  | text (s : String)

/-- the threshold that `since` gives -/
def threshold (since : String) : Except SyncError Threshold :=
  if m.incremental.cursorType = "unix_timestamp" then
    (coerceNumericCursor (.str since)).map fun n => n.elim .none .number
  else if isDatetime m.incremental.cursorType then
    .ok ((coerceDatetimeCursor (.str since)).elim .none .date)
  else .ok (if strip since = "" then .none else .text (strip since))

/-- a record whose cursor is missing or cannot be read is kept -/
def keepsRecord (th : Threshold) (record : Record) : Except SyncError Bool :=
  let rawValue := extractPath (.obj record) m.incremental.cursorField
  if rawValue.isNull then .ok true
  else
    match th with
    | .none => .ok true
    | .number n => (coerceNumericCursor rawValue).map fun coerced => coerced.elim true fun c => decide (n ≤ c)
    | .date t => .ok ((coerceDatetimeCursor rawValue).elim true fun c => decide (t ≤ c))
    | .text s => .ok (decide (s ≤ strip rawValue.text))

def keptRecords (th : Threshold) : List Record → Except SyncError (List Record)
  | [] => .ok []
  | record :: records => do
    let kept ← keepsRecord m th record
    let rest ← keptRecords th records
    return if kept then record :: rest else rest

def filterIncrementalRecords (resource : ConnectorResource) (records : List Record) (since : Option String) :
    Except SyncError (List Record) :=
  if since.getD "" = "" || !resource.supportsIncremental || m.incremental.strategy ≠ "client_filter" then .ok records
  else do keptRecords m (← threshold m (since.getD "")) records

/-! ## The next page -/

/-- the text between the first `<` and the `>` after it -/
def linkTarget (fragment : List Char) : Option String :=
  match fragment.dropWhile (· ≠ '<') with
  | [] => none
  | _ :: rest => if '>' ∈ rest then some (String.ofList (rest.takeWhile (· ≠ '>'))) else none

def parseLinkHeaderCursor (linkHeader : Option String) (paramName : String) : Option String :=
  (((linkHeader.getD "").toList.splitOn ',').filter fun fragment =>
    decide ("rel=\"next\"".toList <:+: fragment)).firstM fun fragment => do
      (PyCursors.queryValues (← linkTarget fragment) paramName).head?

def recordCursor (resource : ConnectorResource) (record : Record) : Option String :=
  let rawCursor := extractPath (.obj record) m.pagination.nextCursorField
  normalizedCursor
    (if rawCursor.isNull then
      (record.lookup (if resource.primaryKey = "" then "id" else resource.primaryKey)).getD .null
    else rawCursor)

/-- `next_cursor_source: response` -/
def responseCursor (payload : Json) : Option String :=
  if m.pagination.responseHasMoreField.getD "" ≠ "" && !truthyFlag (extractPath payload m.pagination.responseHasMoreField)
  then none
  else normalizedCursor (extractPath payload m.pagination.nextCursorField)

/-- `strategy: offset` -/
def offsetCursor (payload : Json) (records : List Record) (currentCursor : Option String) (size : ℤ) :
    Except SyncError (Option String) := do
  let text := strip (if currentCursor.getD "" = "" then "0" else currentCursor.getD "")
  let currentOffset ← raising (PyCursors.int (if text = "" then "0" else text))
  if truthyFlag (extractPath payload m.pagination.responseIsLastField) then .ok none
  else do
    let total ← coerceNumericCursor (extractPath payload m.pagination.responseTotalField)
    let nextOffset := currentOffset + records.length
    .ok (if total.elim false fun t => decide (t ≤ nextOffset) then none
      else if records.isEmpty then none
      else if size ≠ 0 && decide (records.length < size) && total.isNone then none
      else some (toString nextOffset))

/-- the other strategies -/
def lastRecordCursor (resource : ConnectorResource) (payload : Json) (records : List Record) : Option String :=
  if m.pagination.responseHasMoreField.getD "" ≠ "" && !(extractPath payload m.pagination.responseHasMoreField).truthy
  then none
  else records.getLast?.bind (recordCursor m resource)

def nextCursor (resource : ConnectorResource) (response : Response) (records : List Record)
    (currentCursor : Option String) (size : ℤ) : Except SyncError (Option String) :=
  if m.pagination.nextCursorSource = "link_header" then
    .ok (parseLinkHeaderCursor response.link (if m.pagination.linkHeaderParam.getD "" = "" then m.pagination.cursorParam
      else m.pagination.linkHeaderParam.getD ""))
  else if m.pagination.nextCursorSource = "response" then .ok (responseCursor m response.payload)
  else if m.pagination.strategy = "offset" then offsetCursor m response.payload records currentCursor size
  else .ok (lastRecordCursor m resource response.payload records)

def cursorValues (records : List Record) : List Json :=
  (records.map fun r => extractPath (.obj r) m.incremental.cursorField).filter fun v => !v.isNull

def checkpointCursor (records : List Record) : Except SyncError (Option String) :=
  if m.incremental.cursorField = "" then .ok none
  else if m.incremental.cursorType = "unix_timestamp" then
    ((cursorValues m records).mapM coerceNumericCursor).map fun normalized => (normalized.filterMap id).max?.map toString
  else if isDatetime m.incremental.cursorType then
    .ok (((cursorValues m records).filterMap coerceDatetimeCursor).max?.map PyCursors.isoformat)
  else .ok (((cursorValues m records).map fun v => strip v.text).filter (· ≠ "")).max?

/-! ## Extraction -/

def requireResource (resourceName : String) : Except SyncError ConnectorResource :=
  match (Dict.ofList (m.resources.map fun r => (r.key, r))).get? resourceName with
  | some resource => .ok resource
  | none => .error (.connector
      ("Unsupported declarative resource '" ++ resourceName ++ "' for connector '" ++ m.id ++ "'."))

/-- the field of the payload that holds the records -/
def responseKey (resource : ConnectorResource) : String :=
  if resource.responseItemsField.getD "" = "" then m.pagination.responseItemsField
  else resource.responseItemsField.getD ""

/-- the page that a request with these parameters gives -/
def readPage (resource : ConnectorResource) (response : Response) (since cursor : Option String) (size : ℤ) :
    Except SyncError ApiExtractResult := do
  let records ← filterIncrementalRecords m resource (extractRecords response.payload (responseKey m resource)) since
  return {
    records := records.map .obj
    nextCursor := ← nextCursor m resource response records cursor size
    checkpointCursor := ← checkpointCursor m records }

def extractResource (remote : Remote) (resourceName : String) (since cursor : Option String) (limit : Option ℤ) :
    Except SyncError ApiExtractResult := do
  let resource ← requireResource m resourceName
  let params ← buildRequestParams m resource since cursor limit
  let size ← pageSize m params
  readPage m resource (← remote resource.path params) since cursor size

end Connector

end Langbridge.Connectors
