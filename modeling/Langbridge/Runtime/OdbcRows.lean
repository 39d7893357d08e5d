/-
The rows of an answer on the wire (`runtime/hosting/odbc.py`): the columns and the rows of the runtime's payload are
normalised apart from each other and sent as one RowDescription and a DataRow for each row.
-/
import Langbridge.Core.Frames
import Langbridge.Runtime.OdbcGateway

namespace Langbridge.Runtime.OdbcRows

open Core Frames List Function Option

/-! ## Payloads -/

/-- a value of a result, with the text that the source's `isoformat`, `format` or `str` gives for it -/
inductive Cell where
  | null
  | bool (b : Bool)
  | int (n : ℤ)
  | float (text : String)
  | decimal (text : String)
  | date (iso : String)
  | time (iso : String)
  | datetime (zoned : Bool) (iso : String)
  | other (text : String)
  deriving DecidableEq

/-- a column of a payload; a missing name is empty -/
structure ColumnItem where
  name : String
  type : Option String

inductive Row where
  | object (d : Dict String Cell)
  | list (values : List Cell)
  | scalar (value : Cell)

/-- what `execute_sql` returns -/
structure Payload where
  columns : List ColumnItem
  rows : List Row

/-- a column of `RuntimeOdbcQueryResult` -/
structure Column where
  name : String
  typeOid : ℕ

/-- `RuntimeOdbcQueryResult` -/
structure QueryResult where
  columns : List Column
  rows : List (List Cell)
  commandTag : String

/-- `str.isspace` of a character -/
def isSpace (c : Char) : Bool :=
  decide (c.toNat ∈ [9, 10, 11, 12, 13, 28, 29, 30, 31, 32, 133, 160, 5760, 8192, 8193, 8194, 8195, 8196, 8197, 8198,
    8199, 8200, 8201, 8202, 8232, 8233, 8239, 8287, 12288])

def strip (s : String) : String := String.ofList (trim isSpace s.toList)

def inferTypeOidFromValue : Cell → ℕ
  | .null => Odbc.textOid
  | .bool _ => 16
  | .int _ => 20
  | .float _ => 701
  | .decimal _ => 1700
  | .date _ => 1082
  | .time _ => 1083
  | .datetime zoned _ => if zoned then 1184 else 1114
  | .other _ => Odbc.textOid

def textValue : Cell → String
  | .null => ""
  | .bool b => if b then "t" else "f"
  | .int n => toString n
  | .float text | .decimal text | .date text | .time text | .datetime _ text | .other text => text

/-! ## `_normalize_columns` and `_normalize_rows` -/

/-- `row.get(name)` -/
def getCell (d : Dict String Cell) (name : String) : Cell := (d.get? name).getD .null

/-- the value that a column takes its type from -/
def inferredValue (name : String) (index : ℕ) : List Row → Cell
  | [] => .null
  | row :: rows =>
    let value :=
      match row with
      | .object d => getCell d name
      | .list values => (values[index]?).getD .null
      | .scalar _ => .null
    if value = .null then inferredValue name index rows else value

section Normalize

variable [PyText]

def inferTypeOid (rawType : String) : ℕ := (Odbc.pgTypeOids.lookup (PyText.lower (strip rawType))).getD Odbc.textOid

def normalizeColumn (rows : List Row) (item : ColumnItem × ℕ) : Option Column :=
  let name := strip item.1.name
  if name = "" then none
  else
    match item.1.type with
    | some type => some ⟨name, inferTypeOid type⟩
    | none => some ⟨name, inferTypeOidFromValue (inferredValue name item.2 rows)⟩

def normalizeColumns (payload : Payload) : List Column :=
  match payload.columns.zipIdx.filterMap (normalizeColumn payload.rows) with
  | [] =>
    match payload.rows with
    | .object d :: _ => d.entries.map fun e => ⟨e.1, inferTypeOidFromValue e.2⟩
    | _ => []
  | columns => columns

/-- `_normalize_rows`, with the column names so far -/
def normalizeRows : List String → List Row → List (List Cell)
  | _, [] => []
  | names, .object d :: rows =>
    let names := if names = [] then d.keys else names
    names.map (getCell d) :: normalizeRows names rows
  | names, .list values :: rows => values :: normalizeRows names rows
  | names, .scalar value :: rows => [value] :: normalizeRows names rows

/-- the end of `execute` -/
def runtimeResult (payload : Payload) : QueryResult :=
  let columns := normalizeColumns payload
  let rows := normalizeRows (columns.map Column.name) payload.rows
  ⟨columns, rows, "SELECT " ++ toString rows.length⟩

end Normalize

/-! ## Messages -/

def utf8 (s : String) : List UInt8 := Percent.encode s.toList

/-- `str(column.get("name") or "column")` -/
def fieldName (name : String) : String := if name = "" then "column" else name

def encodeField (column : Column) : Option (List UInt8 × List UInt8) :=
  (pack 4 (if column.typeOid = 0 then Odbc.textOid else column.typeOid)).map fun oid =>
    (utf8 (fieldName column.name),
      bigEndian 4 0 ++ bigEndian 2 0 ++ oid ++ bigEndian 2 0xFFFF ++ bigEndian 4 0xFFFFFFFF ++ bigEndian 2 0)

def encodeRowDescription (columns : List Column) : Option (List UInt8) := do
  let count ← pack 2 columns.length
  let fields ← columns.mapM encodeField
  some (count ++ fields.flatMap fieldBytes)

def cellBytes : Cell → Option (List UInt8)
  | .null => none
  | value => some (utf8 (textValue value))

def encodeDataRow (values : List Cell) : Option (List UInt8) := do
  let count ← pack 2 values.length
  let parts ← values.mapM fun value => valueBytes (cellBytes value)
  some (count ++ parts.flatten)

def tagT : UInt8 := 84
def tagD : UInt8 := 68
def tagC : UInt8 := 67
def tagI : UInt8 := 73

/-- the messages that `_execute_query` writes for a result, unless one of them cannot be written -/
def executeQuery (result : QueryResult) : Option (List (UInt8 × List UInt8)) :=
  let complete := (tagC, utf8 result.commandTag ++ [0])
  if result.columns ≠ [] then do
    let description ← encodeRowDescription result.columns
    let rows ← result.rows.mapM encodeDataRow
    some ((tagT, description) :: (rows.map (tagD, ·) ++ [complete]))
  else if result.rows = [] ∧ result.commandTag = "EMPTY" then some [(tagI, [])]
  else some [complete]

/-! ## The client -/

/-- the fields of a RowDescription -/
def readRowDescription (body : List UInt8) : Option (List (List UInt8)) := readCounted (readFields 18) body

/-- the values of a DataRow -/
def readDataRow (body : List UInt8) : Option (List (Option (List UInt8))) := readCounted readValues body

/-- the rows before CommandComplete -/
def readRows : List (UInt8 × List UInt8) → Option (List (List (Option (List UInt8))))
  | [] => none
  | (tag, body) :: more =>
    if tag = tagC then if more = [] then some [] else none
    else if tag = tagD then do
      let row ← readDataRow body
      let rows ← readRows more
      some (row :: rows)
    else none

def readAnswer : List (UInt8 × List UInt8) → Option (List (List UInt8) × List (List (Option (List UInt8))))
  | (tag, body) :: more =>
    if tag = tagT then do
      let names ← readRowDescription body
      let rows ← readRows more
      some (names, rows)
    else (readRows ((tag, body) :: more)).map ([], ·)
  | [] => none

/-- what a client reads of the bytes that are sent for a result -/
def received (result : QueryResult) : Option (List (List UInt8) × List (List (Option (List UInt8)))) := do
  let messages ← executeQuery result
  let bytes ← stream messages
  let messages ← splitFrames bytes
  readAnswer messages

/-! ## What is sent -/

/-- the bytes of a field after its name -/
def fixedPart (column : Column) : List UInt8 :=
  bigEndian 4 0 ++ bigEndian 2 0 ++ bigEndian 4 (if column.typeOid = 0 then Odbc.textOid else column.typeOid) ++
    bigEndian 2 0xFFFF ++ bigEndian 4 0xFFFFFFFF ++ bigEndian 2 0

def fieldOf (column : Column) : List UInt8 × List UInt8 := (utf8 (fieldName column.name), fixedPart column)

def descriptionBody (columns : List Column) : List UInt8 :=
  bigEndian 2 columns.length ++ (columns.map fieldOf).flatMap fieldBytes

def rowBody (values : List Cell) : List UInt8 := bigEndian 2 values.length ++ (values.map cellBytes).flatMap rawValue

/-- the bytes of a value; null has none -/
def cellLength (value : Cell) : ℕ := ((cellBytes value).getD []).length

def messagesOf (result : QueryResult) : List (UInt8 × List UInt8) :=
  (tagT, descriptionBody result.columns) ::
    (result.rows.map (fun row => (tagD, rowBody row)) ++ [(tagC, utf8 result.commandTag ++ [0])])

theorem length_fixedPart (column : Column) : (fixedPart column).length = 18 := by
  simp only [fixedPart, length_append, length_bigEndian]

theorem fixedPart_getLast? (column : Column) : (fixedPart column).getLast? = some 0 := by
  rfl

theorem encodeField_iff (column : Column) (field : List UInt8 × List UInt8) : encodeField column = some field ↔
    (if column.typeOid = 0 then Odbc.textOid else column.typeOid) < 256 ^ 4 ∧ field = fieldOf column := by
  rw [encodeField, map_eq_some_iff]
  constructor
  · rintro ⟨oid, hoid, rfl⟩
    rcases pack_eq_some_iff.1 hoid with ⟨hfits, rfl⟩
    exact ⟨hfits, rfl⟩
  · rintro ⟨hfits, rfl⟩
    exact ⟨_, pack_eq_some_iff.2 ⟨hfits, rfl⟩, rfl⟩

theorem encodeRowDescription_iff {columns : List Column} (hoids : ∀ c ∈ columns, c.typeOid < 256 ^ 4)
    (body : List UInt8) :
    encodeRowDescription columns = some body ↔ columns.length < 256 ^ 2 ∧ body = descriptionBody columns := by
  have hfields : columns.mapM encodeField = some (columns.map fieldOf) := by
    refine (mapM_eq_some_iff encodeField_iff columns _).2 ⟨fun c hc => ?_, rfl⟩
    split_ifs
    · decide
    · exact hoids c hc
  rw [encodeRowDescription, hfields]
  constructor
  · intro h
    obtain ⟨count, hcount, h⟩ := bind_eq_some_iff.1 h
    rcases pack_eq_some_iff.1 hcount with ⟨hfits, rfl⟩
    exact ⟨hfits, (Option.some.inj h).symm⟩
  · rintro ⟨hfits, rfl⟩
    rw [pack_eq_some_iff.2 ⟨hfits, rfl⟩]
    rfl

theorem encodeDataRow_iff (values : List Cell) (body : List UInt8) : encodeDataRow values = some body ↔
    (values.length < 256 ^ 2 ∧ ∀ v ∈ values, cellLength v < 256 ^ 4) ∧ body = rowBody values := by
  have hvalues := mapM_eq_some_iff (fun v => valueBytes_eq_some_iff (cellBytes v)) values
  have hflat : (values.map fun v => rawValue (cellBytes v)).flatten = (values.map cellBytes).flatMap rawValue := by
    rw [flatMap_def, List.map_map]
    rfl
  constructor
  · intro h
    obtain ⟨count, hcount, h⟩ := bind_eq_some_iff.1 h
    obtain ⟨parts, hparts, h⟩ := bind_eq_some_iff.1 h
    rcases pack_eq_some_iff.1 hcount with ⟨hfits, rfl⟩
    rcases (hvalues parts).1 hparts with ⟨hlengths, rfl⟩
    exact ⟨⟨hfits, hlengths⟩, by rw [rowBody, ← hflat, Option.some.inj h]⟩
  · rintro ⟨⟨hfits, hlengths⟩, rfl⟩
    rw [encodeDataRow, pack_eq_some_iff.2 ⟨hfits, rfl⟩, (hvalues _).2 ⟨hlengths, rfl⟩, rowBody, ← hflat]
    rfl

variable {result : QueryResult}

theorem executeQuery_iff (hcolumns : result.columns ≠ [])
    (hoids : ∀ c ∈ result.columns, c.typeOid < 256 ^ 4) (messages : List (UInt8 × List UInt8)) :
    executeQuery result = some messages ↔ (result.columns.length < 256 ^ 2 ∧
      ∀ row ∈ result.rows, row.length < 256 ^ 2 ∧ ∀ v ∈ row, cellLength v < 256 ^ 4) ∧
        messages = messagesOf result := by
  have hrows := mapM_eq_some_iff encodeDataRow_iff result.rows
  rw [executeQuery, if_pos hcolumns]
  constructor
  · intro h
    obtain ⟨description, hdescription, h⟩ := bind_eq_some_iff.1 h
    obtain ⟨rows, hmore, h⟩ := bind_eq_some_iff.1 h
    rcases (encodeRowDescription_iff hoids description).1 hdescription with ⟨hfits, rfl⟩
    rcases (hrows rows).1 hmore with ⟨hall, rfl⟩
    refine ⟨⟨hfits, hall⟩, (Option.some.inj h).symm.trans ?_⟩
    rw [List.map_map]
    rfl
  · rintro ⟨⟨hfits, hall⟩, rfl⟩
    rw [(encodeRowDescription_iff hoids _).2 ⟨hfits, rfl⟩, (hrows _).2 ⟨hall, rfl⟩]
    change some _ = some _
    rw [List.map_map]
    rfl

/-! ## What is read -/

theorem utf8_injective : Function.Injective utf8 := by
  intro a b h
  exact String.toList_injective (encode_injective h)

theorem zero_mem_utf8_iff (s : String) : (0 : UInt8) ∈ utf8 s ↔ Char.ofNat 0 ∈ s.toList := zero_mem_encode_iff s.toList

theorem readRowDescription_iff {columns : List Column} (h : columns.length < 256 ^ 2) (names : List (List UInt8)) :
    readRowDescription (descriptionBody columns) = some names ↔
      names = columns.map (fun c => utf8 (fieldName c.name)) ∧
        ∀ c ∈ columns, Char.ofNat 0 ∉ (fieldName c.name).toList := by
  have hfixed : ∀ f ∈ columns.map fieldOf, f.2.length = 18 ∧ f.2.getLast? = some 0 := by
    intro f hf
    obtain ⟨c, -, rfl⟩ := mem_map.1 hf
    exact ⟨length_fixedPart c, fixedPart_getLast? c⟩
  have hfields := readFields_eq_some_iff (columns.map fieldOf) hfixed names
  rw [length_map] at hfields
  rw [readRowDescription, descriptionBody, readCounted_append _ h, hfields, List.map_map, List.forall_mem_map]
  simp only [fieldOf, zero_mem_utf8_iff]
  rfl

theorem readDataRow_rowBody {values : List Cell} (h : values.length < 256 ^ 2)
    (hshort : ∀ v ∈ values, cellLength v < 0xFFFFFFFF) :
    readDataRow (rowBody values) = some (values.map cellBytes) := by
  have hvalues := readValues_rawValue (values.map cellBytes) (forall_mem_map.2 hshort)
  rw [length_map] at hvalues
  rw [readDataRow, rowBody, readCounted_append _ h, hvalues]

theorem readRows_rows (rows : List (List Cell)) (hfits : ∀ row ∈ rows, row.length < 256 ^ 2)
    (hshort : ∀ row ∈ rows, ∀ v ∈ row, cellLength v < 0xFFFFFFFF) (complete : List UInt8) :
    readRows (rows.map (fun row => (tagD, rowBody row)) ++ [(tagC, complete)]) =
      some (rows.map (·.map cellBytes)) := by
  induction rows with
  | nil => rfl
  | cons row rows ih =>
    rcases forall_mem_cons.1 hfits with ⟨hrow, hfits⟩
    rcases forall_mem_cons.1 hshort with ⟨hvalues, hshort⟩
    rw [map_cons, cons_append, readRows, if_neg (by decide), if_pos rfl, readDataRow_rowBody hrow hvalues,
      ih hfits hshort]
    rfl

theorem received_eq_some_iff (result : QueryResult)
    (r : List (List UInt8) × List (List (Option (List UInt8)))) : received result = some r ↔
      ∃ messages, executeQuery result = some messages ∧ (∀ m ∈ messages, m.2.length + 4 < 2 ^ 31) ∧
        readAnswer messages = some r := by
  have hsplit : received result = (executeQuery result).bind fun messages =>
      ((stream messages).bind splitFrames).bind readAnswer := by
    refine congrArg _ (funext fun messages => ?_)
    change ((stream messages).bind fun bytes => (splitFrames bytes).bind readAnswer) = _
    rw [bind_assoc]
  rw [hsplit, bind_eq_some_iff]
  refine exists_congr fun messages => and_congr_right fun _ => ?_
  rw [splitFrames_stream]
  split_ifs with hshort
  · exact (and_iff_right hshort).symm
  · exact iff_of_false (fun h => nomatch h) fun h => hshort h.1

/-- no message of a result is too long -/
structure Short (result : QueryResult) : Prop where
  columns : result.columns.length < 256 ^ 2
  description : (descriptionBody result.columns).length + 4 < 2 ^ 31
  widths : ∀ row ∈ result.rows, row.length < 256 ^ 2
  rows : ∀ row ∈ result.rows, (rowBody row).length + 4 < 2 ^ 31
  complete : (utf8 result.commandTag ++ [0]).length + 4 < 2 ^ 31

theorem length_rowBody (values : List Cell) :
    (rowBody values).length = 2 + (values.map fun v => 4 + cellLength v).sum := by
  rw [rowBody, length_append, length_bigEndian, length_flatMap, List.map_map]
  simp only [comp_def, length_rawValue]
  rfl

theorem length_descriptionBody (columns : List Column) : (descriptionBody columns).length =
    2 + (columns.map fun c => (utf8 (fieldName c.name)).length + 19).sum := by
  rw [descriptionBody, length_append, length_bigEndian, length_flatMap, List.map_map]
  simp only [comp_def, fieldBytes, fieldOf, length_append, length_cons, length_fixedPart]

/-- a value is shorter than its message -/
theorem cellLength_lt {values : List Cell} {v : Cell} (hv : v ∈ values) : cellLength v < (rowBody values).length := by
  have hle := le_sum_of_mem (mem_map_of_mem (f := fun v => 4 + cellLength v) hv)
  rw [length_rowBody]
  omega

/-- **What a client reads** of an answer with columns. -/
theorem received_columns_iff (hcolumns : result.columns ≠ [])
    (hoids : ∀ c ∈ result.columns, c.typeOid < 256 ^ 4) (r : List (List UInt8) × List (List (Option (List UInt8)))) :
    received result = some r ↔ Short result ∧ (∀ c ∈ result.columns, Char.ofNat 0 ∉ (fieldName c.name).toList) ∧
      r = (result.columns.map fun c => utf8 (fieldName c.name), result.rows.map (·.map cellBytes)) := by
  have hread : (∀ row ∈ result.rows, row.length < 256 ^ 2) → (∀ row ∈ result.rows, (rowBody row).length + 4 < 2 ^ 31) →
      readRows (result.rows.map (fun row => (tagD, rowBody row)) ++ [(tagC, utf8 result.commandTag ++ [0])]) =
        some (result.rows.map (·.map cellBytes)) := by
    intro hfits hshort
    refine readRows_rows _ hfits (fun row hrow v hv => ?_) _
    have hlt := cellLength_lt hv
    have hle := hshort row hrow
    omega
  rw [received_eq_some_iff]
  constructor
  · rintro ⟨messages, hmessages, hshort, hanswer⟩
    rcases (executeQuery_iff hcolumns hoids messages).1 hmessages with ⟨⟨hcount, hrows⟩, rfl⟩
    rcases forall_mem_cons.1 hshort with ⟨hdescription, hshort⟩
    have hfits : ∀ row ∈ result.rows, row.length < 256 ^ 2 := fun row hrow => (hrows row hrow).1
    have hbodies : ∀ row ∈ result.rows, (rowBody row).length + 4 < 2 ^ 31 := fun row hrow =>
      hshort _ (mem_append_left _ (mem_map_of_mem hrow))
    have hcomplete := hshort _ (mem_append_right _ (mem_singleton_self _))
    rw [messagesOf, readAnswer, if_pos rfl, hread hfits hbodies] at hanswer
    obtain ⟨names, hnames, hanswer⟩ := bind_eq_some_iff.1 hanswer
    rcases (readRowDescription_iff hcount names).1 hnames with ⟨rfl, hclean⟩
    exact ⟨⟨hcount, hdescription, hfits, hbodies, hcomplete⟩, hclean, (Option.some.inj hanswer).symm⟩
  · rintro ⟨hshort, hclean, rfl⟩
    have hvalues : ∀ row ∈ result.rows, row.length < 256 ^ 2 ∧ ∀ v ∈ row, cellLength v < 256 ^ 4 := by
      intro row hrow
      refine ⟨hshort.widths row hrow, fun v hv => ?_⟩
      have hlt := cellLength_lt hv
      have hle := hshort.rows row hrow
      omega
    refine ⟨_, (executeQuery_iff hcolumns hoids _).2 ⟨⟨hshort.columns, hvalues⟩, rfl⟩, ?_, ?_⟩
    · refine forall_mem_cons.2 ⟨hshort.description, fun m hm => ?_⟩
      rcases mem_append.1 hm with hm | hm
      · obtain ⟨row, hrow, rfl⟩ := mem_map.1 hm
        exact hshort.rows row hrow
      · rw [mem_singleton.1 hm]
        exact hshort.complete
    · rw [messagesOf, readAnswer, if_pos rfl, hread hshort.widths hshort.rows,
        (readRowDescription_iff hshort.columns _).2 ⟨rfl, hclean⟩]
      rfl

/-- without columns a client reads nothing -/
theorem received_nothing (hcolumns : result.columns = []) (htag : result.commandTag ≠ "EMPTY")
    (r : List (List UInt8) × List (List (Option (List UInt8)))) : received result = some r ↔
      (utf8 result.commandTag ++ [0]).length + 4 < 2 ^ 31 ∧ r = ([], []) := by
  have hmessages : executeQuery result = some [(tagC, utf8 result.commandTag ++ [0])] := by
    rw [executeQuery, if_neg fun h => h hcolumns, if_neg fun h => htag h.2]
  rw [received_eq_some_iff, hmessages]
  constructor
  · rintro ⟨messages, hsome, hshort, hanswer⟩
    rw [← Option.some.inj hsome] at hshort hanswer
    exact ⟨hshort _ (mem_singleton_self _), (Option.some.inj hanswer).symm⟩
  · rintro ⟨hshort, rfl⟩
    refine ⟨_, rfl, fun m hm => ?_, rfl⟩
    rw [mem_singleton.1 hm]
    exact hshort

/-! ## The columns and the values of a payload -/

def Payload.firstKeys (payload : Payload) : List String :=
  match payload.rows with
  | .object d :: _ => d.keys
  | _ => []

def Payload.names (payload : Payload) : List String :=
  if payload.columns = [] then payload.firstKeys else payload.columns.map ColumnItem.name

def Row.values (names : List String) : Row → List Cell
  | .object d => names.map (getCell d)
  | .list values => values
  | .scalar value => [value]

/-- the values of all rows; without columns a row that has none needs no message -/
def Payload.values (payload : Payload) : List (List Cell) :=
  let rows := payload.rows.map (Row.values payload.names)
  if payload.names = [] then rows.filter fun values => !values.isEmpty else rows

section Recovered

variable [PyText]

/-- what the client reads are the columns and the values of the payload, and every row has a value for every field -/
def Recovered (payload : Payload) : Prop :=
  ∃ r, received (runtimeResult payload) = some r ∧ r.1 = payload.names.map utf8 ∧
    r.2 = payload.values.map (·.map cellBytes) ∧ ∀ row ∈ r.2, row.length = r.1.length

end Recovered

/-- the names are sent as they are: they have no blanks around them, or all are blank and are the keys of the first row,
none of them empty -/
def SentAsNamed (payload : Payload) : Prop :=
  (payload.columns ≠ [] ∧ ∀ c ∈ payload.columns, c.name ≠ "" ∧ strip c.name = c.name) ∨
    ((∀ c ∈ payload.columns, strip c.name = "") ∧ payload.names = payload.firstKeys ∧ "" ∉ payload.names)

/-- the payloads that a client recovers -/
structure Recoverable (payload : Payload) : Prop where
  named : SentAsNamed payload
  clean : ∀ n ∈ payload.names, Char.ofNat 0 ∉ n.toList
  few : payload.names.length < 256 ^ 2
  even : ∀ row ∈ payload.rows, (row.values payload.names).length = payload.names.length
  describable : 2 + (payload.names.map fun n => (utf8 n).length + 19).sum + 4 < 2 ^ 31
  sendable : ∀ row ∈ payload.rows, 2 + ((row.values payload.names).map fun v => 4 + cellLength v).sum + 4 < 2 ^ 31
  countable : (utf8 ("SELECT " ++ toString payload.rows.length) ++ [0]).length + 4 < 2 ^ 31

theorem normalizeRows_eq {names : List String} (h : names ≠ []) (rows : List Row) :
    normalizeRows names rows = rows.map (Row.values names) := by
  induction rows with
  | nil => rfl
  | cons row rows ih => cases row <;> simp [normalizeRows, Row.values, h, ih]

theorem length_normalizeRows (names : List String) (rows : List Row) :
    (normalizeRows names rows).length = rows.length := by
  induction rows generalizing names with
  | nil => rfl
  | cons row rows ih => cases row <;> simp [normalizeRows, ih]

def Payload.kept (payload : Payload) : List String :=
  (payload.columns.map fun c => strip c.name).filter (· ≠ "")

theorem kept_eq_nil_iff (payload : Payload) : payload.kept = [] ↔ ∀ c ∈ payload.columns, strip c.name = "" := by
  simp [Payload.kept, filter_eq_nil_iff]

/-- nothing is dropped and nothing changes exactly if no name is empty or has blanks around it -/
theorem kept_eq_iff (payload : Payload) : payload.kept = payload.columns.map ColumnItem.name ↔
    ∀ c ∈ payload.columns, c.name ≠ "" ∧ strip c.name = c.name := by
  constructor
  · intro h
    have hlength := congrArg List.length h
    have hall : payload.kept = payload.columns.map fun c => strip c.name := by
      refine Sublist.eq_of_length filter_sublist ?_
      rw [hlength, length_map, length_map]
    have hsame : ∀ c ∈ payload.columns, strip c.name = c.name := map_inj_left.1 (hall.symm.trans h)
    intro c hc
    refine ⟨fun hempty => ?_, hsame c hc⟩
    have hmem : c.name ∈ payload.kept := h ▸ mem_map_of_mem hc
    simpa [hempty] using (mem_filter.1 hmem).2
  · intro h
    rw [Payload.kept, map_congr_left fun c hc => (h c hc).2, filter_eq_self.2]
    intro n hn
    obtain ⟨c, hc, rfl⟩ := mem_map.1 hn
    simpa using (h c hc).1

theorem fieldName_ne_empty (n : String) : fieldName n ≠ "" := by
  unfold fieldName
  split_ifs with h
  · decide
  · exact h

theorem map_fieldName_eq {names : List String} (h : "" ∉ names) : names.map fieldName = names := by
  refine (map_congr_left fun n hn => if_neg ?_).trans (List.map_id names)
  rintro rfl
  exact h hn

section Names

variable [PyText]

theorem normalizeColumn_eq_some {rows : List Row} {item : ColumnItem × ℕ} {c : Column}
    (h : normalizeColumn rows item = some c) : c.name = strip item.1.name ∧ strip item.1.name ≠ "" := by
  simp only [normalizeColumn] at h
  split_ifs at h with hname
  refine ⟨?_, hname⟩
  cases htype : item.1.type <;> rw [htype] at h <;> rw [← Option.some.inj h]

theorem isSome_normalizeColumn (rows : List Row) (item : ColumnItem × ℕ) :
    (normalizeColumn rows item).isSome ↔ strip item.1.name ≠ "" := by
  simp only [normalizeColumn]
  split_ifs with hname
  · simp [hname]
  · cases item.1.type <;> simp [hname]

theorem map_name_filterMap (rows : List Row) (items : List (ColumnItem × ℕ)) :
    (items.filterMap (normalizeColumn rows)).map Column.name =
      (items.map fun item => strip item.1.name).filter (· ≠ "") := by
  induction items with
  | nil => rfl
  | cons item items ih =>
    rw [map_cons]
    cases hitem : normalizeColumn rows item with
    | none =>
      have hblank : strip item.1.name = "" := by
        by_contra hne
        simpa [hitem] using (isSome_normalizeColumn rows item).2 hne
      rw [filterMap_cons_none hitem, ih, filter_cons_of_neg (by simpa using hblank)]
    | some c =>
      rcases normalizeColumn_eq_some hitem with ⟨hname, hne⟩
      rw [filterMap_cons_some hitem, map_cons, ih, filter_cons_of_pos (by simpa using hne), hname]

theorem normalizeColumns_names (payload : Payload) : (normalizeColumns payload).map Column.name =
    if payload.kept = [] then payload.firstKeys else payload.kept := by
  have hkept : (payload.columns.zipIdx.filterMap (normalizeColumn payload.rows)).map Column.name = payload.kept := by
    rw [map_name_filterMap, Payload.kept]
    congr 1
    have hfst := congrArg (List.map fun c : ColumnItem => strip c.name) (zipIdx_map_fst 0 payload.columns)
    rwa [List.map_map] at hfst
  unfold normalizeColumns
  split
  · next hnil =>
    rw [hnil, map_nil] at hkept
    rw [if_pos hkept.symm, Payload.firstKeys]
    rcases payload.rows with - | ⟨d | values | value, rows⟩
    · rfl
    · rw [List.map_map]
      rfl
    · rfl
    · rfl
  · next hne =>
    rw [← hkept, if_neg fun h => hne (map_eq_nil_iff.1 h)]

/-- **The field names are the columns** exactly if these are sent as they are named. -/
theorem fieldNames_eq_iff (payload : Payload) :
    (normalizeColumns payload).map (fun c => fieldName c.name) = payload.names ↔ SentAsNamed payload := by
  have hnames : (normalizeColumns payload).map (fun c => fieldName c.name) =
      (if payload.kept = [] then payload.firstKeys else payload.kept).map fieldName := by
    rw [← normalizeColumns_names, List.map_map]
    rfl
  rw [hnames, SentAsNamed]
  by_cases hkept : payload.kept = []
  · have hblank := (kept_eq_nil_iff payload).1 hkept
    rw [if_pos hkept]
    constructor
    · intro h
      have hfirst : "" ∉ payload.firstKeys := by
        intro hmem
        -- the empty key is sent as a name that is not blank
        have hcolumn : "column" ∈ payload.names := h ▸ mem_map.2 ⟨"", hmem, rfl⟩
        unfold Payload.names at hcolumn h
        split_ifs at hcolumn h with hnil
        · rw [← h] at hmem
          obtain ⟨n, -, hn⟩ := mem_map.1 hmem
          exact fieldName_ne_empty n hn
        · obtain ⟨c, hc, hname⟩ := mem_map.1 hcolumn
          have hempty := hblank c hc
          rw [hname] at hempty
          exact absurd hempty (by decide)
      rw [map_fieldName_eq hfirst] at h
      exact .inr ⟨hblank, h.symm, h ▸ hfirst⟩
    · rintro (⟨hne, hall⟩ | ⟨-, hkeys, hempty⟩)
      · obtain ⟨c, hc⟩ := exists_mem_of_ne_nil _ hne
        exact absurd ((hall c hc).2.symm.trans (hblank c hc)) (hall c hc).1
      · rw [← hkeys, map_fieldName_eq hempty]
  · have hcolumns : payload.columns ≠ [] := by
      intro hnil
      simp [Payload.kept, hnil] at hkept
    have hkeptNames : "" ∉ payload.kept := fun hmem => by simpa using (mem_filter.1 hmem).2
    rw [if_neg hkept, map_fieldName_eq hkeptNames, Payload.names, if_neg hcolumns, kept_eq_iff]
    constructor
    · exact fun h => .inl ⟨hcolumns, h⟩
    · rintro (⟨-, h⟩ | ⟨hblank, -⟩)
      · exact h
      · exact absurd ((kept_eq_nil_iff payload).2 hblank) hkept

theorem typeOid_lt (payload : Payload) : ∀ c ∈ normalizeColumns payload, c.typeOid < 256 ^ 4 := by
  have htable : ∀ type : String, inferTypeOid type < 256 ^ 4 := by
    intro type
    rw [inferTypeOid]
    cases hoid : Odbc.pgTypeOids.lookup (PyText.lower (strip type)) with
    | none => decide
    | some oid =>
      have hall : ∀ e ∈ Odbc.pgTypeOids, e.2 < 256 ^ 4 := by simp [Odbc.pgTypeOids]
      obtain ⟨before, after, hsplit, -⟩ := List.lookup_eq_some_iff.1 hoid
      exact hall (_, oid) (hsplit ▸ mem_append_right before mem_cons_self)
  have hvalue : ∀ value : Cell, inferTypeOidFromValue value < 256 ^ 4 := by
    intro value
    cases value <;> simp only [inferTypeOidFromValue, Odbc.textOid] <;> norm_num
    split_ifs <;> norm_num
  intro c hc
  unfold normalizeColumns at hc
  split at hc
  · rcases hrows : payload.rows with - | ⟨d | values | value, rows⟩ <;> rw [hrows] at hc
    · exact absurd hc not_mem_nil
    · obtain ⟨e, -, rfl⟩ := mem_map.1 hc
      exact hvalue e.2
    · exact absurd hc not_mem_nil
    · exact absurd hc not_mem_nil
  · obtain ⟨item, -, hitem⟩ := mem_filterMap.1 hc
    simp only [normalizeColumn] at hitem
    split_ifs at hitem
    cases htype : item.1.type with
    | none =>
      rw [htype] at hitem
      rw [← Option.some.inj hitem]
      exact hvalue _
    | some type =>
      rw [htype] at hitem
      rw [← Option.some.inj hitem]
      exact htable type

variable {payload : Payload}

/-- columns are sent for every payload that names some -/
theorem normalizeColumns_eq_nil (h : payload.names = []) : normalizeColumns payload = [] := by
  unfold Payload.names at h
  split_ifs at h with hcolumns
  · have hkept : payload.kept = [] := by rw [Payload.kept, hcolumns]; rfl
    have hnames := normalizeColumns_names payload
    rw [if_pos hkept, h] at hnames
    exact map_eq_nil_iff.1 hnames
  · exact absurd (map_eq_nil_iff.1 h) hcolumns

theorem map_name_of_sentAsNamed (h : SentAsNamed payload) :
    (normalizeColumns payload).map Column.name = payload.names := by
  have hnames := (fieldNames_eq_iff payload).2 h
  rw [← hnames]
  refine map_congr_left fun c hc => (if_neg fun hempty => ?_).symm
  have hmem : c.name ∈ (normalizeColumns payload).map Column.name := mem_map_of_mem hc
  rw [normalizeColumns_names, hempty] at hmem
  split_ifs at hmem with hkept
  · rcases h with ⟨hne, hall⟩ | ⟨-, hkeys, hnot⟩
    · obtain ⟨item, hitem⟩ := exists_mem_of_ne_nil _ hne
      exact (hall item hitem).1 ((hall item hitem).2.symm.trans ((kept_eq_nil_iff payload).1 hkept item hitem))
    · exact hnot (hkeys ▸ hmem)
  · simpa using (mem_filter.1 hmem).2

/-- without columns a client recovers a payload exactly if it has no values -/
theorem recovered_iff_of_nil (hnil : normalizeColumns payload = []) : Recovered payload ↔ Recoverable payload := by
  have hresult : (runtimeResult payload).commandTag = "SELECT " ++ toString payload.rows.length := by
    rw [runtimeResult, length_normalizeRows]
  have htag : (runtimeResult payload).commandTag ≠ "EMPTY" := by
    rw [hresult]
    intro hempty
    have hchars := congrArg (fun s : String => s.toList.head?) hempty
    simp at hchars
  constructor
  · rintro ⟨r, hr, hnames, hvalues, -⟩
    rcases (received_nothing hnil htag r).1 hr with ⟨hcomplete, rfl⟩
    have hnone : payload.names = [] := map_eq_nil_iff.1 hnames.symm
    have hcolumns : payload.columns = [] := by
      unfold Payload.names at hnone
      split_ifs at hnone with h
      · exact h
      · exact map_eq_nil_iff.1 hnone
    have hrows : ∀ row ∈ payload.rows, row.values payload.names = [] := by
      have hfilter := map_eq_nil_iff.1 hvalues.symm
      rw [Payload.values, if_pos hnone, filter_eq_nil_iff, List.forall_mem_map] at hfilter
      exact fun row hrow => by simpa using hfilter row hrow
    refine ⟨.inr ⟨by simp [hcolumns], ?_, by simp [hnone]⟩, by simp [hnone], by simp [hnone], ?_, by simp [hnone],
      ?_, hresult ▸ hcomplete⟩
    · rw [Payload.names, if_pos hcolumns]
    · intro row hrow
      rw [hrows row hrow, hnone]
      rfl
    · intro row hrow
      simp [hrows row hrow]
  · intro h
    have hnone : payload.names = [] := by
      rw [← map_name_of_sentAsNamed h.named, hnil]
      rfl
    have hvalues : payload.values = [] := by
      rw [Payload.values, if_pos hnone, filter_eq_nil_iff, List.forall_mem_map]
      intro row hrow
      have hlength := h.even row hrow
      rw [hnone, length_nil, length_eq_zero_iff] at hlength
      simp [hnone, hlength]
    refine ⟨([], []), (received_nothing hnil htag _).2 ⟨hresult ▸ h.countable, rfl⟩, ?_, ?_, forall_mem_nil _⟩
    · rw [hnone]
      rfl
    · rw [hvalues]
      rfl

theorem runtimeResult_of_named (hne : normalizeColumns payload ≠ []) (h : SentAsNamed payload) :
    (runtimeResult payload).rows = payload.values ∧ payload.values = payload.rows.map (Row.values payload.names) := by
  have hnames : payload.names ≠ [] := fun hnil => hne (normalizeColumns_eq_nil hnil)
  have hvalues : payload.values = payload.rows.map (Row.values payload.names) := by
    rw [Payload.values, if_neg hnames]
  refine ⟨?_, hvalues⟩
  rw [runtimeResult, map_name_of_sentAsNamed h, normalizeRows_eq hnames, hvalues]

theorem short_iff (hne : normalizeColumns payload ≠ []) (h : SentAsNamed payload)
    (heven : ∀ row ∈ payload.rows, (row.values payload.names).length = payload.names.length) :
    Short (runtimeResult payload) ↔ payload.names.length < 256 ^ 2 ∧
      2 + (payload.names.map fun n => (utf8 n).length + 19).sum + 4 < 2 ^ 31 ∧
      (∀ row ∈ payload.rows, 2 + ((row.values payload.names).map fun v => 4 + cellLength v).sum + 4 < 2 ^ 31) ∧
      (utf8 ("SELECT " ++ toString payload.rows.length) ++ [0]).length + 4 < 2 ^ 31 := by
  have hrows := (runtimeResult_of_named hne h).1.trans (runtimeResult_of_named hne h).2
  have hfields := (fieldNames_eq_iff payload).2 h
  have hcount : (runtimeResult payload).columns.length = payload.names.length := by
    rw [← hfields, length_map]
    rfl
  have hdescription : (descriptionBody (runtimeResult payload).columns).length =
      2 + (payload.names.map fun n => (utf8 n).length + 19).sum := by
    rw [length_descriptionBody, ← hfields, List.map_map]
    rfl
  have htag : (runtimeResult payload).commandTag = "SELECT " ++ toString payload.rows.length := by
    rw [runtimeResult, length_normalizeRows]
  constructor
  · intro hshort
    refine ⟨hcount ▸ hshort.columns, hdescription ▸ hshort.description, fun row hrow => ?_, htag ▸ hshort.complete⟩
    rw [← length_rowBody]
    exact hshort.rows _ (hrows ▸ mem_map_of_mem hrow)
  · rintro ⟨hfew, hdescribable, hsendable, hcountable⟩
    refine ⟨hcount ▸ hfew, hdescription ▸ hdescribable, ?_, ?_, htag ▸ hcountable⟩
    · rw [hrows, List.forall_mem_map]
      exact fun row hrow => (heven row hrow).symm ▸ hfew
    · rw [hrows, List.forall_mem_map]
      intro row hrow
      rw [length_rowBody]
      exact hsendable row hrow

theorem sentAsNamed_of_recovered (h : Recovered payload) : SentAsNamed payload := by
  by_cases hnil : normalizeColumns payload = []
  · exact ((recovered_iff_of_nil hnil).1 h).named
  obtain ⟨r, hr, hnames, -⟩ := h
  rcases (@received_columns_iff (runtimeResult payload) hnil (typeOid_lt payload) r).1 hr with ⟨-, -, rfl⟩
  refine (fieldNames_eq_iff payload).1 ((map_injective_iff.2 utf8_injective) (Eq.trans ?_ hnames))
  rw [List.map_map]
  rfl

/-- **Clients recover a payload** exactly if its names are sent as they are and have no NUL, every list has a value for
every column, and no message is too long. -/
theorem recovered_iff (payload : Payload) : Recovered payload ↔ Recoverable payload := by
  by_cases hnil : normalizeColumns payload = []
  · exact recovered_iff_of_nil hnil
  have hreceived := @received_columns_iff (runtimeResult payload) hnil (typeOid_lt payload)
  constructor
  · intro h
    have hnamed := sentAsNamed_of_recovered h
    have hsent := (fieldNames_eq_iff payload).2 hnamed
    obtain ⟨r, hr, hnames, hvalues, hwidths⟩ := h
    rcases (hreceived r).1 hr with ⟨hshort, hclean, rfl⟩
    have hrows := (runtimeResult_of_named hnil hnamed).1.trans (runtimeResult_of_named hnil hnamed).2
    have heven : ∀ row ∈ payload.rows, (row.values payload.names).length = payload.names.length := by
      intro row hrow
      have hmem : row.values payload.names ∈ (runtimeResult payload).rows := hrows ▸ mem_map_of_mem hrow
      have hwidth := hwidths _ (mem_map_of_mem hmem)
      rwa [hnames, length_map, length_map] at hwidth
    rcases (short_iff hnil hnamed heven).1 hshort with ⟨hfew, hdescribable, hsendable, hcountable⟩
    refine ⟨hnamed, ?_, hfew, heven, hdescribable, hsendable, hcountable⟩
    rw [← hsent, List.forall_mem_map]
    exact hclean
  · intro h
    have hsent := (fieldNames_eq_iff payload).2 h.named
    rcases runtimeResult_of_named hnil h.named with ⟨hrows, hvalues⟩
    have hshort := (short_iff hnil h.named h.even).2 ⟨h.few, h.describable, h.sendable, h.countable⟩
    have hclean : ∀ c ∈ normalizeColumns payload, Char.ofNat 0 ∉ (fieldName c.name).toList := by
      have hall := h.clean
      rwa [← hsent, List.forall_mem_map] at hall
    refine ⟨_, (hreceived _).2 ⟨hshort, hclean, rfl⟩, ?_, ?_, ?_⟩
    · rw [← hsent, List.map_map]
      rfl
    · rw [hrows]
    · rw [hrows, hvalues, List.map_map, List.forall_mem_map]
      intro row hrow
      rw [comp_apply, length_map, length_map, h.even row hrow, ← hsent, length_map]
      rfl

end Names

section Padded

open scoped Ascii

/-- the column " a " and a row with the value 1 -/
def padded : Payload :=
  ⟨[⟨String.ofList [ ' ', 'a', ' '], none⟩], [.object ⟨[(String.ofList [ ' ', 'a', ' '], .int 1)], by simp⟩]⟩

/-- **A column whose values are lost**: the row is asked for the name without blanks. -/
theorem padded_name : received (runtimeResult padded) = some ([[97]], [[none]]) ∧ ¬ Recovered padded := by
  constructor
  · refine (received_columns_iff (by decide +kernel) (typeOid_lt padded) _).2 ⟨⟨?_, ?_, ?_, ?_, ?_⟩, ?_, ?_⟩
    · decide +kernel
    · decide +kernel
    · decide +kernel
    · decide +kernel
    · decide +kernel
    · decide +kernel
    · decide +kernel
  · intro h
    rcases sentAsNamed_of_recovered h with ⟨-, hall⟩ | ⟨hblank, -⟩
    · exact absurd (hall _ mem_cons_self).2 (by decide +kernel)
    · exact absurd (hblank _ mem_cons_self) (by decide +kernel)

end Padded

end Langbridge.Runtime.OdbcRows
