/-
The API connectors that are written by hand: Salesforce and Google Analytics
(`langbridge-connector-salesforce`, `langbridge-connector-google-analytics`), page by page.

The remotes honour the requests they are sent. A SOQL `LIMIT` bounds the whole result, which Salesforce serves in pages
of its own; a report of Google Analytics answers with the rows from the offset on.

Salesforce is sent no `since`, and the page size as the `LIMIT` of a query in ascending order: what is newest is left
out.
-/
import Langbridge.Connectors.Declarative

namespace Langbridge.Connectors

open Core List Option
open Langbridge.Runtime
open PyText (strip)

/-- what the connectors use of Python besides: `str.upper` and `float(text)` -/
class PyReports extends PyCursors where
  upper : String → String
  float : String → Option String

/-! ## Pages -/

/-- `ApiExtractResult` of an extraction that succeeds -/
structure Extract where
  resource : String
  records : List Record
  nextCursor : Option String
  checkpointCursor : Option String

/-- `_clamp_limit`, as a length -/
def pageLength (limit : Option ℤ) (dflt maximum : ℕ) : ℕ := (clampLimit limit dflt maximum).toNat

theorem pageLength_pos (limit : Option ℤ) {dflt : ℕ} (h : 0 < dflt) (maximum : ℕ) :
    0 < pageLength limit dflt maximum := by
  rw [pageLength, clampLimit, Int.lt_toNat]
  cases limit with
  | none => exact Int.natCast_pos.2 h
  | some l => exact lt_of_lt_of_le Int.zero_lt_one (le_max_left _ _)

/-- the cursor of the page that follows -/
def Extract.next (p : Extract) : Option (Option String) := p.nextCursor.map some

/-- Following `next_cursor` ends, extracts each of the wanted records once, and the greatest checkpoint is the greatest
cursor value extracted. -/
def ExtractsAll (extract : Option String → Except String Extract) (records : List Record) (wanted : Record → Bool)
    (stamp : Record → Option String) : Prop :=
  ∃ ps, Paging.Chain extract Extract.next none ps ∧
    ((ps.flatMap (·.records)).filter wanted).Perm (records.filter wanted) ∧
    (ps.filterMap (·.checkpointCursor)).max? = ((ps.flatMap (·.records)).filterMap stamp).max?

/-- the value of a key, or `None` -/
def valueOf (es : Record) (key : String) : Json := (es.lookup key).getD .null

/-! ## Salesforce -/

section Salesforce

variable [PyText]

def resourceObjects : List (String × String) :=
  [("accounts", "Account"), ("contacts", "Contact"), ("leads", "Lead"), ("opportunities", "Opportunity")]

def resourceFields : List (String × List String) :=
  [("accounts", ["Id", "Name", "Type", "Industry", "BillingCity", "BillingCountry", "CreatedDate", "LastModifiedDate",
      "SystemModstamp"]),
    ("contacts", ["Id", "FirstName", "LastName", "Email", "Phone", "AccountId", "LeadSource", "CreatedDate",
      "LastModifiedDate", "SystemModstamp"]),
    ("leads", ["Id", "FirstName", "LastName", "Company", "Status", "Email", "Phone", "LeadSource", "CreatedDate",
      "LastModifiedDate", "SystemModstamp"]),
    ("opportunities", ["Id", "Name", "StageName", "Amount", "CloseDate", "AccountId", "Type", "LeadSource",
      "CreatedDate", "LastModifiedDate", "SystemModstamp"])]

def soqlQuery (resource : String) (limit : ℕ) : Except String String :=
  match resourceObjects.lookup resource, resourceFields.lookup resource with
  | some object, some fields =>
    .ok ("SELECT " ++ ", ".intercalate fields ++ " FROM " ++ object ++ " ORDER BY SystemModstamp ASC LIMIT " ++
      toString limit)
  | _, _ => .error ("Unsupported Salesforce resource '" ++ resource ++ "'.")

/-- the requests that `_authenticated_json` sends -/
inductive SalesforceRequest where
  | query (path soql : String)
  | url (path : String)

abbrev Salesforce := SalesforceRequest → Except String Json

mutual

def removeAttributes : Json → Json
  | .arr items => .arr (removeAttributesList items)
  | .obj es => .obj (removeAttributesEntries es)
  | v => v

def removeAttributesList : List Json → List Json
  | [] => []
  | v :: vs => removeAttributes v :: removeAttributesList vs

def removeAttributesEntries : List (String × Json) → List (String × Json)
  | [] => []
  | (k, v) :: es =>
    if k = "attributes" then removeAttributesEntries es else (k, removeAttributes v) :: removeAttributesEntries es

end

/-- the cursor value of a record, unless it is blank -/
def salesforceStamp (row : Record) : Option String :=
  let text := strip ((valueOf row "SystemModstamp").orElse (.str "")).text
  if text = "" then none else some text

def maxSalesforceCursor (rows : List Record) : Option String := (rows.filterMap salesforceStamp).max?

/-- `nextRecordsUrl` of a response -/
def nextRecordsUrl (payload : Record) : Option String :=
  let raw := valueOf payload "nextRecordsUrl"
  if raw.truthy then
    let text := strip raw.text
    if text = "" then none else some text
  else none

def salesforcePage (resource : String) : Json → Except String Extract
  | .obj payload =>
    let records := (recordsOf (valueOf payload "records")).map removeAttributesEntries
    .ok ⟨resource, records, nextRecordsUrl payload, maxSalesforceCursor records⟩
  | _ => .error "Salesforce response was not a valid JSON object."

/-- `SalesforceApiConnector.extract_resource` -/
def extractSalesforce (remote : Salesforce) (version resource : String) (_since : Option String) (limit : Option ℤ)
    (cursor : Option String) : Except String Extract := do
  if (resourceObjects.lookup resource).isNone then throw ("Unsupported resource '" ++ resource ++ "'.")
  let pageSize := pageLength limit 200 2000
  let payload ← match cursor.filter (· ≠ "") with
    | some url => remote (.url url)
    | none => do remote (.query ("/services/data/" ++ version ++ "/query") (← soqlQuery resource pageSize))
  salesforcePage resource payload

/-- Salesforce answers a request with some records, in pages of its own: the first page with the URL of the others -/
inductive Serves (remote : Salesforce) : SalesforceRequest → List Record → Prop where
  | last {req : SalesforceRequest} {payload : Record} (h : remote req = .ok (.obj payload))
      (hnone : valueOf payload "nextRecordsUrl" = .null) : Serves remote req (recordsOf (valueOf payload "records"))
  | more {req : SalesforceRequest} {payload : Record} {url : String} {rest : List Record}
      (h : remote req = .ok (.obj payload)) (hurl : valueOf payload "nextRecordsUrl" = .str url)
      (hstrip : strip url = url) (hne : url ≠ "") (hrest : Serves remote (.url url) rest) :
      Serves remote req (recordsOf (valueOf payload "records") ++ rest)

/-- the record's cursor value is at or after `since` -/
def atOrAfterStamp (since : Option String) (row : Record) : Bool :=
  since.all fun s => (salesforceStamp row).any fun stamp => s ≤ stamp

/-- Salesforce holds some records of a resource, each with a cursor value, and honours a query: it orders them by the
cursor value and serves as many as its `LIMIT` says -/
structure HonoursQueries (remote : Salesforce) (version resource : String) (limit : Option ℤ)
    (rs ordered : List Record) : Prop where
  known : (resourceObjects.lookup resource).isSome = true ∧ (resourceFields.lookup resource).isSome = true
  perm : ordered.Perm rs
  stamped : ∀ r ∈ ordered, (salesforceStamp (removeAttributesEntries r)).isSome = true
  sorted : ordered.Pairwise fun a b => ∀ s ∈ salesforceStamp (removeAttributesEntries a),
    ∀ t ∈ salesforceStamp (removeAttributesEntries b), s ≤ t
  serves : ∀ soql, soqlQuery resource (pageLength limit 200 2000) = .ok soql →
    Serves remote (.query ("/services/data/" ++ version ++ "/query") soql) (ordered.take (pageLength limit 200 2000))

/-- the extraction of a page, whose request is known -/
theorem extractSalesforce_eq (remote : Salesforce) (version : String) {resource : String} (since : Option String)
    (limit : Option ℤ) (cursor : Option String) (hknown : (resourceObjects.lookup resource).isSome = true) :
    extractSalesforce remote version resource since limit cursor = (match cursor.filter (· ≠ "") with
      | some url => remote (.url url)
      | none => do remote (.query ("/services/data/" ++ version ++ "/query")
          (← soqlQuery resource (pageLength limit 200 2000)))) >>= salesforcePage resource := by
  obtain ⟨object, hobject⟩ := isSome_iff_exists.1 hknown
  rw [extractSalesforce, hobject, if_neg (by simp)]
  cases cursor.filter (· ≠ "") with
  | some url => rfl
  | none =>
    dsimp only
    cases soqlQuery resource (pageLength limit 200 2000) <;> rfl

theorem removeAttributes_page {resource : String} {payload : Record} (p : Extract)
    (h : salesforcePage resource (.obj payload) = .ok p) :
    p.records = (recordsOf (valueOf payload "records")).map removeAttributesEntries ∧
      p.nextCursor = nextRecordsUrl payload ∧ p.checkpointCursor = (p.records.filterMap salesforceStamp).max? := by
  cases h
  exact ⟨rfl, rfl, rfl⟩

theorem nextRecordsUrl_none {payload : Record} (h : valueOf payload "nextRecordsUrl" = .null) :
    nextRecordsUrl payload = none := by
  rw [nextRecordsUrl, h]
  rfl

theorem nextRecordsUrl_some {payload : Record} {url : String} (h : valueOf payload "nextRecordsUrl" = .str url)
    (hstrip : strip url = url) (hne : url ≠ "") : nextRecordsUrl payload = some url := by
  simp [nextRecordsUrl, h, Json.truthy, Json.text, hstrip, hne]

/-- The pages of a request chain up to all the records it is answered with, each with the greatest cursor value of its
own. -/
theorem chain_of_serves {remote : Salesforce} {version resource : String} (since : Option String) (limit : Option ℤ)
    (hknown : (resourceObjects.lookup resource).isSome = true) {req : SalesforceRequest} {served : List Record}
    (h : Serves remote req served) (cursor : Option String)
    (hcursor : extractSalesforce remote version resource since limit cursor = remote req >>= salesforcePage resource) :
    ∃ ps, Paging.Chain (extractSalesforce remote version resource since limit) Extract.next cursor ps ∧
      ps.flatMap (·.records) = served.map removeAttributesEntries ∧
      ∀ p ∈ ps, p.checkpointCursor = (p.records.filterMap salesforceStamp).max? := by
  induction h generalizing cursor with
  | @last req payload h hnone =>
    rw [h] at hcursor
    obtain ⟨p, hp⟩ : ∃ p, salesforcePage resource (.obj payload) = .ok p := ⟨_, rfl⟩
    obtain ⟨hrecords, hnext, hmax⟩ := removeAttributes_page p hp
    refine ⟨[p], .last (hcursor.trans hp) ?_, ?_, ?_⟩
    · rw [Extract.next, hnext, nextRecordsUrl_none hnone, map_none]
    · rw [flatMap_singleton, hrecords]
    · simpa using hmax
  | @more req payload url rest h hurl hstrip hne _ ih =>
    rw [h] at hcursor
    obtain ⟨p, hp⟩ : ∃ p, salesforcePage resource (.obj payload) = .ok p := ⟨_, rfl⟩
    obtain ⟨hrecords, hnext, hmax⟩ := removeAttributes_page p hp
    obtain ⟨ps, hps, hread, hcheck⟩ := ih (some url) (by
      rw [extractSalesforce_eq _ _ _ _ _ hknown, filter_some_pos (by simpa using hne)])
    refine ⟨p :: ps, .more (hcursor.trans hp) ?_ hps, ?_, ?_⟩
    · rw [Extract.next, hnext, nextRecordsUrl_some hurl hstrip hne, map_some]
    · rw [flatMap_cons, hrecords, hread, map_append]
    · simpa using ⟨hmax, hcheck⟩

/-- the greatest checkpoint of the pages is the greatest cursor value extracted -/
theorem max?_checkpoints {ps : List Extract}
    (h : ∀ p ∈ ps, p.checkpointCursor = (p.records.filterMap salesforceStamp).max?) :
    (ps.filterMap (·.checkpointCursor)).max? = ((ps.flatMap (·.records)).filterMap salesforceStamp).max? := by
  have hpages : ps.filterMap (·.checkpointCursor) =
      (ps.map fun p => p.records.filterMap salesforceStamp).filterMap List.max? := by
    rw [filterMap_map]
    exact filterMap_congr h
  rw [hpages, Paging.max?_filterMap_max?, filterMap_flatMap, flatMap_def]

/-- a record at or after a later one of the result is there when the earlier one is -/
theorem atOrAfterStamp_mono {since : Option String} {a b : Record} (hb : (salesforceStamp b).isSome = true)
    (hle : ∀ s ∈ salesforceStamp a, ∀ t ∈ salesforceStamp b, s ≤ t) (h : atOrAfterStamp since a = true) :
    atOrAfterStamp since b = true := by
  obtain ⟨t, ht⟩ := isSome_iff_exists.1 hb
  cases since with
  | none => rfl
  | some bound =>
    cases hstamp : salesforceStamp a with
    | none => simp [atOrAfterStamp, hstamp] at h
    | some s =>
      have hbound : bound ≤ s := by simpa [atOrAfterStamp, hstamp] using h
      have hst : s ≤ t := hle s hstamp t ht
      simpa [atOrAfterStamp, ht] using hbound.trans hst

/-- Salesforce is read completely iff a page has room for the whole table, or no record is at or after `since`. -/
theorem extractsAll_salesforce_iff {remote : Salesforce} {version resource : String} {limit : Option ℤ}
    {rs ordered : List Record} (h : HonoursQueries remote version resource limit rs ordered) (since : Option String) :
    ExtractsAll (extractSalesforce remote version resource since limit) (rs.map removeAttributesEntries)
        (atOrAfterStamp since) salesforceStamp ↔
      rs.length ≤ pageLength limit 200 2000 ∨ ∀ r ∈ rs, atOrAfterStamp since (removeAttributesEntries r) = false := by
  obtain ⟨object, hobject⟩ := isSome_iff_exists.1 h.known.1
  obtain ⟨fields, hfields⟩ := isSome_iff_exists.1 h.known.2
  obtain ⟨soql, hsoql⟩ : ∃ soql, soqlQuery resource (pageLength limit 200 2000) = .ok soql :=
    ⟨_, by rw [soqlQuery, hobject, hfields]⟩
  obtain ⟨ps, hps, hread, hcheck⟩ := chain_of_serves since limit h.known.1 (h.serves soql hsoql) none
    (by rw [extractSalesforce_eq _ _ _ _ _ h.known.1, filter_none, hsoql]; rfl)
  have hsorted : (ordered.map removeAttributesEntries).Pairwise fun a b =>
      atOrAfterStamp since a = true → atOrAfterStamp since b = true := by
    rw [pairwise_map]
    exact (h.sorted.imp_of_mem fun _ hb hle => atOrAfterStamp_mono (h.stamped _ hb) hle)
  have hiff := Paging.filter_take_perm_iff (atOrAfterStamp since) hsorted (pageLength limit 200 2000)
  rw [← map_take, ← hread, length_map, h.perm.length_eq, List.forall_mem_map] at hiff
  have hall := (h.perm.map removeAttributesEntries).filter (atOrAfterStamp since)
  have hmem : (∀ r ∈ ordered, atOrAfterStamp since (removeAttributesEntries r) = false) ↔
      ∀ r ∈ rs, atOrAfterStamp since (removeAttributesEntries r) = false := by
    simp only [h.perm.mem_iff]
  rw [hmem] at hiff
  rw [← hiff]
  constructor
  · rintro ⟨qs, hqs, hperm, -⟩
    rw [hqs.unique hps] at hperm
    exact hperm.trans hall.symm
  · exact fun hperm => ⟨ps, hps, hperm.trans hall, max?_checkpoints hcheck⟩

end Salesforce

/-! ## Google Analytics -/

def reportDefinitions : List (String × List String × List String) :=
  [("events", ["date", "eventName"], ["eventCount", "totalUsers"]),
    ("pages", ["date", "pagePath", "pageTitle"], ["screenPageViews", "activeUsers"]),
    ("sessions", ["date", "sessionDefaultChannelGroup"], ["sessions", "engagedSessions", "totalUsers"]),
    ("traffic_sources", ["date", "sessionSource", "sessionMedium"], ["sessions", "totalUsers"])]

/-- the body of a `runReport` request -/
structure ReportRequest where
  dateRanges : List (String × String)
  dimensions : List String
  metrics : List String
  limit : String
  offset : String

abbrev Analytics := ReportRequest → Except String Json

def runReport (remote : Analytics) (resource : String) (offset limit : ℕ) : Except String Record :=
  match reportDefinitions.lookup resource with
  | none => .error ("Unsupported Google Analytics resource '" ++ resource ++ "'.")
  | some (dimensions, metrics) => do
    match ← remote ⟨[("30daysAgo", "today")], dimensions, metrics, toString limit, toString offset⟩ with
    | .obj payload => return payload
    | _ => throw "Google Analytics response was not a valid report payload."

def listOf (es : Record) (key : String) : List Json :=
  match valueOf es key with
  | .arr items => items
  | _ => []

def setField (record : Record) (key : String) (value : Json) : Record :=
  if record.any (·.1 = key) then record.map fun e => if e.1 = key then (key, value) else e else record ++ [(key, value)]

section Analytics

variable [PyReports]

/-- `int(value)` -/
def intOfJson : Json → Except String ℤ
  | .int i => .ok i
  | .bool b => .ok (if b then 1 else 0)
  | .str s => (PyCursors.int s).elim (.error "invalid literal for int()") .ok
  | .float t => (PyCursors.trunc t).elim (.error "cannot convert float to integer") .ok
  | _ => .error "int() argument must be a string or a number"

def coerceMetricValue (metricType : String) (raw : Json) : Json :=
  let value := (raw.orElse (.str "")).text
  if value = "" then .null
  else if metricType ∈ ["TYPE_INTEGER", "TYPE_SECONDS", "TYPE_MILLISECONDS", "TYPE_MINUTES", "TYPE_HOURS"] then
    (PyCursors.int value).elim (.str value) .int
  else if metricType ∈ ["TYPE_FLOAT", "TYPE_STANDARD", "TYPE_CURRENCY"] then
    (PyReports.float value).elim (.str value) .float
  else .str value

/-- the loop over the headers of a row: each header names the value at its place, as far as there are values -/
def readValues (read : Record → Json → Json) : List Json → List Json → Record → Record
  | .obj header :: headers, .obj value :: values, record =>
    let name := strip ((valueOf header "name").orElse (.str "")).text
    readValues read headers values
      (if name = "" then record else setField record name (read header (valueOf value "value")))
  | _ :: headers, _ :: values, record => readValues read headers values record
  | _, _, record => record

def recordOfRow (dimensionHeaders metricHeaders : List Json) : Json → Option Record
  | .obj row =>
    let metric (header : Record) (value : Json) : Json :=
      coerceMetricValue (PyReports.upper (strip ((valueOf header "type").orElse (.str "")).text)) value
    let record := readValues metric metricHeaders (listOf row "metricValues")
      (readValues (fun _ value => value) dimensionHeaders (listOf row "dimensionValues") [])
    if record = [] then none else some record
  | _ => none

def recordsFromReport (payload : Record) : Except String (List Record × ℤ) := do
  let rowCount ← intOfJson ((valueOf payload "rowCount").orElse (.int 0))
  return ((listOf payload "rows").filterMap
    (recordOfRow (listOf payload "dimensionHeaders") (listOf payload "metricHeaders")), rowCount)

/-- `GoogleAnalyticsApiConnector.extract_resource` -/
def extractAnalytics (remote : Analytics) (resource : String) (_since : Option String) (limit : Option ℤ)
    (cursor : Option String) : Except String Extract := do
  if (reportDefinitions.lookup resource).isNone then throw ("Unsupported resource '" ++ resource ++ "'.")
  let offset ← match PyCursors.int ((cursor.filter (· ≠ "")).getD "0") with
    | none => throw "Google Analytics cursor must be an integer offset."
    | some i => pure i.toNat
  let payload ← runReport remote resource offset (pageLength limit 1000 10000)
  let (records, rowCount) ← recordsFromReport payload
  let behind := offset + records.length
  return ⟨resource, records, if (behind : ℤ) < rowCount then some (toString behind) else none, none⟩

/-- Google Analytics has a report with some rows for a resource, and honours the limit and the offset of a request -/
structure HonoursReports (remote : Analytics) (resource : String) (dimensionHeaders metricHeaders rows : List Json) :
    Prop where
  known : (reportDefinitions.lookup resource).isSome = true
  answers : ∀ offset limit, 0 < limit → ∃ payload, runReport remote resource offset limit = .ok payload ∧
    listOf payload "dimensionHeaders" = dimensionHeaders ∧ listOf payload "metricHeaders" = metricHeaders ∧
    listOf payload "rows" = (rows.drop offset).take limit ∧
    intOfJson ((valueOf payload "rowCount").orElse (.int 0)) = .ok rows.length

section Honest

variable {remote : Analytics} {resource : String} {dimensionHeaders metricHeaders rows : List Json}

def Names (cursor : Option String) (offset : ℕ) : Prop :=
  PyCursors.int ((cursor.filter (· ≠ "")).getD "0") = some (offset : ℤ)

theorem names_none : Names none 0 := PyCursors.int_nat 0

theorem names_toString (offset : ℕ) : Names (some (toString offset)) offset := by
  rw [Names, filter_some_pos (by simp), getD_some, PyCursors.int_nat]

/-- The page at an offset has the records of the rows from it on, and the next one starts behind as many rows as this
one has records. -/
theorem extractAnalytics_names (h : HonoursReports remote resource dimensionHeaders metricHeaders rows)
    (since : Option String) (limit : Option ℤ) {cursor : Option String} {offset : ℕ} (hcursor : Names cursor offset) :
    ∃ p, extractAnalytics remote resource since limit cursor = .ok p ∧
      p.records = ((rows.drop offset).take (pageLength limit 1000 10000)).filterMap
        (recordOfRow dimensionHeaders metricHeaders) ∧
      p.checkpointCursor = none ∧
      p.nextCursor = if offset + p.records.length < rows.length then some (toString (offset + p.records.length))
        else none := by
  obtain ⟨payload, hrun, hdimensions, hmetrics, hrows, hcount⟩ :=
    h.answers offset (pageLength limit 1000 10000) (pageLength_pos limit (by decide) 10000)
  obtain ⟨definition, hdefinition⟩ := isSome_iff_exists.1 h.known
  have hread : recordsFromReport payload = .ok (((rows.drop offset).take (pageLength limit 1000 10000)).filterMap
      (recordOfRow dimensionHeaders metricHeaders), (rows.length : ℤ)) := by
    rw [recordsFromReport, hcount, hdimensions, hmetrics, hrows]
    rfl
  generalize hrecords : ((rows.drop offset).take (pageLength limit 1000 10000)).filterMap
    (recordOfRow dimensionHeaders metricHeaders) = records at hread ⊢
  refine ⟨⟨resource, records, if offset + records.length < rows.length then some (toString (offset + records.length))
    else none, none⟩, ?_, rfl, rfl, rfl⟩
  rw [extractAnalytics, hdefinition, if_neg (by simp), hcursor]
  simp only [Int.toNat_natCast, bind, Except.bind, pure, Except.pure, hrun, hread, Nat.cast_lt]

/-- a report has no checkpoint -/
theorem checkpointCursor_analytics {since : Option String} {limit : Option ℤ} {cursor : Option String} {p : Extract}
    (h : extractAnalytics remote resource since limit cursor = .ok p) : p.checkpointCursor = none := by
  rw [extractAnalytics] at h
  by_cases hknown : (reportDefinitions.lookup resource).isNone = true
  · rw [if_pos hknown] at h
    cases h
  rw [if_neg hknown] at h
  cases hoffset : PyCursors.int ((cursor.filter (· ≠ "")).getD "0") with
  | none =>
    rw [hoffset] at h
    cases h
  | some i =>
    rw [hoffset] at h
    obtain ⟨payload, -, h⟩ := of_bind_ok (f := fun payload => recordsFromReport payload >>= _) h
    obtain ⟨⟨records, rowCount⟩, -, h⟩ := of_bind_ok h
    exact Except.ok.inj h ▸ rfl

/-- A chain that ends has extracted at least as many records as there are rows. -/
theorem length_le_of_chain (h : HonoursReports remote resource dimensionHeaders metricHeaders rows)
    {since : Option String} {limit : Option ℤ} {cursor : Option String} {ps : List Extract}
    (hps : Paging.Chain (extractAnalytics remote resource since limit) Extract.next cursor ps) {offset : ℕ}
    (hcursor : Names cursor offset) : rows.length ≤ offset + (ps.flatMap (·.records)).length := by
  induction hps generalizing offset with
  | @last cursor p hfetch hnext =>
    obtain ⟨p', hp', -, -, hnext'⟩ := extractAnalytics_names h since limit hcursor
    rw [hfetch] at hp'
    cases hp'
    rw [Extract.next, hnext', map_eq_none_iff] at hnext
    rw [flatMap_singleton]
    by_contra hlt
    rw [if_pos (by omega)] at hnext
    cases hnext
  | @more cursor cursor' p ps hfetch hnext _ ih =>
    obtain ⟨p', hp', -, -, hnext'⟩ := extractAnalytics_names h since limit hcursor
    rw [hfetch] at hp'
    cases hp'
    rw [Extract.next, hnext', map_eq_some_iff] at hnext
    obtain ⟨text, htext, rfl⟩ := hnext
    by_cases hlt : offset + p.records.length < rows.length
    · rw [if_pos hlt] at htext
      cases htext
      have hrest := ih (names_toString (offset + p.records.length))
      rw [flatMap_cons, length_append]
      omega
    · rw [if_neg hlt] at htext
      cases htext

/-- the records of the first rows, when each row has one, are as many as the rows -/
theorem length_records (hall : ∀ row ∈ rows, (recordOfRow dimensionHeaders metricHeaders row).isSome = true)
    {l : List Json} (hl : ∀ row ∈ l, row ∈ rows) : (l.filterMap (recordOfRow dimensionHeaders metricHeaders)).length = l.length :=
  filterMap_length_eq_length.2 fun row hrow => hall row (hl row hrow)

theorem exists_chain (h : HonoursReports remote resource dimensionHeaders metricHeaders rows)
    (hall : ∀ row ∈ rows, (recordOfRow dimensionHeaders metricHeaders row).isSome = true) (since : Option String)
    (limit : Option ℤ) :
    ∃ ps, Paging.Chain (extractAnalytics remote resource since limit) Extract.next none ps ∧
      ps.flatMap (·.records) = rows.filterMap (recordOfRow dimensionHeaders metricHeaders) := by
  have hn := pageLength_pos limit (show 0 < 1000 by decide) 10000
  generalize hsize : pageLength limit 1000 10000 = n at hn
  refine Paging.Chain.of_walk (fun cursor l => ∃ offset, Names cursor offset ∧ l = rows.drop offset)
    Extract.records
    (fun l => (l.take n).filterMap (recordOfRow dimensionHeaders metricHeaders)) _ (fun l => l.length ≤ n) (·.drop n)
    ?_ ?_ ?_ none rows ⟨0, names_none, rfl⟩
  · intro l
    by_cases hle : l.length ≤ n
    · rw [if_pos (by simpa using hle), take_of_length_le hle]
    · rw [if_neg (by simpa using hle), ← filterMap_append, take_append_drop]
  · intro l hl
    rw [length_drop]
    have hlt : n < l.length := by simpa using hl
    omega
  · rintro cursor l ⟨offset, hcursor, rfl⟩
    obtain ⟨p, hp, hrecords, -, hnext⟩ := extractAnalytics_names h since limit hcursor
    rw [hsize] at hrecords
    refine ⟨p, hp, hrecords, ?_⟩
    have hlength : p.records.length = min n (rows.length - offset) := by
      rw [hrecords, length_records hall fun row hrow => mem_of_mem_drop (mem_of_mem_take hrow),
        length_take, length_drop]
    by_cases hle : (rows.drop offset).length ≤ n
    · rw [length_drop] at hle
      rw [if_pos (by simpa using hle), Extract.next, hnext, if_neg (by omega), map_none]
    · rw [length_drop] at hle
      rw [if_neg (by simpa using hle), Extract.next, hnext, if_pos (by omega), map_some]
      refine ⟨_, rfl, _, names_toString _, ?_⟩
      rw [drop_drop, hlength, Nat.min_eq_left (by omega)]

theorem extractsAll_analytics_iff (h : HonoursReports remote resource dimensionHeaders metricHeaders rows)
    (since : Option String) (limit : Option ℤ) :
    ExtractsAll (extractAnalytics remote resource since limit)
        (rows.filterMap (recordOfRow dimensionHeaders metricHeaders)) (fun _ => true) (fun _ => none) ↔
      ∀ row ∈ rows, (recordOfRow dimensionHeaders metricHeaders row).isSome = true := by
  constructor
  · rintro ⟨ps, hps, hperm, -⟩
    rw [filter_true, filter_true] at hperm
    have hle := length_le_of_chain h hps names_none
    rw [Nat.zero_add, hperm.length_eq] at hle
    exact filterMap_length_eq_length.1 (le_antisymm (length_filterMap_le _ _) hle)
  · intro hall
    obtain ⟨ps, hps, hread⟩ := exists_chain h hall since limit
    have hnone : ps.filterMap (·.checkpointCursor) = [] := filterMap_eq_nil_iff.2 fun p hp => by
      obtain ⟨cursor, hfetch⟩ := hps.fetched hp
      exact checkpointCursor_analytics hfetch
    refine ⟨ps, hps, by rw [hread], ?_⟩
    rw [hnone, filterMap_eq_nil_iff.2 fun _ _ => rfl]

end Honest

end Analytics

/-- Following `next_cursor` extracts everything once, with the greatest cursor value as the checkpoint: from Salesforce
iff a page has room for the whole table or no record is at or after `since`, and from Google Analytics iff every row of
the report has a record. -/
theorem extractions_complete_iff [PyReports] {salesforce : Salesforce} {version resource : String}
    {rs ordered : List Record} {limit : Option ℤ} (hs : HonoursQueries salesforce version resource limit rs ordered)
    {analytics : Analytics} {report : String} {dimensionHeaders metricHeaders rows : List Json}
    (ha : HonoursReports analytics report dimensionHeaders metricHeaders rows) (since : Option String) :
    (ExtractsAll (extractSalesforce salesforce version resource since limit) (rs.map removeAttributesEntries)
        (atOrAfterStamp since) salesforceStamp ↔
      rs.length ≤ pageLength limit 200 2000 ∨ ∀ r ∈ rs, atOrAfterStamp since (removeAttributesEntries r) = false) ∧
    (ExtractsAll (extractAnalytics analytics report since limit)
        (rows.filterMap (recordOfRow dimensionHeaders metricHeaders)) (fun _ => true) (fun _ => none) ↔
      ∀ row ∈ rows, (recordOfRow dimensionHeaders metricHeaders row).isSome = true) :=
  ⟨extractsAll_salesforce_iff hs since, extractsAll_analytics_iff ha since limit⟩

section Tables

open scoped Decimal

/-- capitals of ASCII letters, no fractions -/
scoped instance Decimal.pyReports : PyReports where
  upper s := String.ofList (s.toList.map Char.toUpper)
  float _ := none

/-- a contact of Salesforce -/
def contact (id stamp : String) : Record :=
  [("attributes", .obj [("type", .str "Contact")]), ("Id", .str id), ("SystemModstamp", .str stamp)]

def contacts : List Record := [contact "003A" "2024-01-01T00:00:00", contact "003B" "2024-03-01T00:00:00"]

/-- the number at the end of a query -/
def limitOf (soql : String) : ℕ :=
  ((Decimal.decimal (String.ofList (soql.toList.reverse.takeWhile Char.isDigit).reverse)).getD 0).toNat

theorem limitOf_soqlQuery {resource : String} {limit : ℕ} {soql : String} (h : soqlQuery resource limit = .ok soql) :
    limitOf soql = limit := by
  rw [soqlQuery] at h
  split at h
  · cases h
    have hdigits : ∀ c ∈ (toString limit).toList.reverse, c.isDigit = true := fun c hc =>
      repr_digits limit c (mem_reverse.1 hc)
    have hspace : " ORDER BY SystemModstamp ASC LIMIT ".toList.reverse =
        ' ' :: " ORDER BY SystemModstamp ASC LIMIT".toList.reverse := by decide
    simp only [limitOf, String.toList_append, reverse_append]
    rw [takeWhile_append_of_pos hdigits, hspace, cons_append, takeWhile_cons_of_neg (by decide),
      append_nil, reverse_reverse, String.ofList_toList, Decimal.decimal_repr, getD_some,
      Int.toNat_natCast]
  · cases h

/-- Salesforce with a table: it serves as many records as the query says, in one page -/
def tableOf (rs : List Record) : Salesforce
  | .query _ soql => .ok (.obj [("records", .arr ((rs.take (limitOf soql)).map .obj))])
  | .url _ => .error "INVALID_QUERY_LOCATOR"

theorem recordsOf_map (rs : List Record) : recordsOf (.arr (rs.map .obj)) = rs := by
  rw [recordsOf, filterMap_map]
  exact filterMap_some

theorem serves_last (rs : List Record) (path soql : String) :
    Serves (tableOf rs) (.query path soql) (recordsOf (.arr ((rs.take (limitOf soql)).map .obj))) := by
  have hanswer : tableOf rs (.query path soql) =
      .ok (.obj [("records", .arr ((rs.take (limitOf soql)).map .obj))]) := rfl
  exact .last hanswer rfl

theorem tableOf_honours {rs : List Record}
    (hstamped : ∀ r ∈ rs, (salesforceStamp (removeAttributesEntries r)).isSome = true)
    (hsorted : rs.Pairwise fun a b => ∀ s ∈ salesforceStamp (removeAttributesEntries a),
      ∀ t ∈ salesforceStamp (removeAttributesEntries b), s ≤ t) (limit : Option ℤ) :
    HonoursQueries (tableOf rs) "v60.0" "contacts" limit rs rs where
  known := by decide
  perm := .refl _
  stamped := hstamped
  sorted := hsorted
  serves soql hsoql := by
    rw [← limitOf_soqlQuery hsoql, ← recordsOf_map (rs.take (limitOf soql))]
    exact serves_last rs _ soql

theorem contacts_honour (limit : Option ℤ) :
    HonoursQueries (tableOf contacts) "v60.0" "contacts" limit contacts contacts :=
  tableOf_honours (by decide +kernel) (by decide +kernel) limit

/-- Google Analytics with some rows; every request is for the same report -/
def reportOf (dimensionHeaders metricHeaders rows : List Json) : Analytics := fun request =>
  let offset := ((Decimal.decimal request.offset).getD 0).toNat
  let limit := ((Decimal.decimal request.limit).getD 0).toNat
  .ok (.obj [("dimensionHeaders", .arr dimensionHeaders), ("metricHeaders", .arr metricHeaders),
    ("rows", .arr ((rows.drop offset).take limit)), ("rowCount", .int rows.length)])

theorem reportOf_honours {resource : String} (h : (reportDefinitions.lookup resource).isSome = true)
    (dimensionHeaders metricHeaders rows : List Json) :
    HonoursReports (reportOf dimensionHeaders metricHeaders rows) resource dimensionHeaders metricHeaders rows where
  known := h
  answers offset limit _ := by
    obtain ⟨⟨dimensions, metrics⟩, hdefinition⟩ := isSome_iff_exists.1 h
    refine ⟨_, by rw [runReport, hdefinition]; rfl, rfl, rfl, ?_, ?_⟩
    · rw [Decimal.decimal_repr, Decimal.decimal_repr]
      rfl
    · cases rows <;> rfl

/-- a row of the report on sessions -/
def session (date count : String) : Json :=
  .obj [("dimensionValues", .arr [.obj [("value", .str date)]]), ("metricValues", .arr [.obj [("value", .str count)]])]

/-- two contacts in pages of two, and two rows of a report in pages of two -/
theorem contacts_and_sessions :
    let dates := [Json.obj [("name", .str "date")]]
    let counts := [Json.obj [("name", .str "sessions"), ("type", .str "TYPE_INTEGER")]]
    let rows := [session "20240101" "7", session "20240102" "9"]
    ExtractsAll (extractSalesforce (tableOf contacts) "v60.0" "contacts" (some "2024-02-01") (some 2))
        (contacts.map removeAttributesEntries) (atOrAfterStamp (some "2024-02-01")) salesforceStamp ∧
      ExtractsAll (extractAnalytics (reportOf dates counts rows) "sessions" (some "2024-02-01") (some 2))
        (rows.filterMap (recordOfRow dates counts)) (fun _ => true) (fun _ => none) := by
  intro dates counts rows
  have h := extractions_complete_iff (contacts_honour (some 2))
    (reportOf_honours (show (reportDefinitions.lookup "sessions").isSome = true by decide) dates counts rows)
    (some "2024-02-01")
  exact ⟨h.1.2 (.inl (by decide)), h.2.2 (by decide +kernel)⟩

/-- Two contacts in pages of one: the newer one is never extracted, whatever it is that has been seen before. -/
theorem newest_left_out :
    HonoursQueries (tableOf contacts) "v60.0" "contacts" (some 1) contacts contacts ∧
      ¬ExtractsAll (extractSalesforce (tableOf contacts) "v60.0" "contacts" (some "2024-02-01") (some 1))
        (contacts.map removeAttributesEntries) (atOrAfterStamp (some "2024-02-01")) salesforceStamp := by
  have h := contacts_honour (some 1)
  exact ⟨h, fun hall => absurd ((extractsAll_salesforce_iff h _).1 hall) (by decide +kernel)⟩

end Tables

end Langbridge.Connectors
