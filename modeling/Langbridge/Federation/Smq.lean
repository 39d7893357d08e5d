/-
The semantic-query (SMQ) path of the federation layer (`semantic/query/query_model.py`, `federation/models/smq.py`,
`federation/planner/smq_compiler.py`): the executor dumps a `SemanticQuery`, `SMQQuery` validates the dump, and
`SMQCompiler` dumps that and validates a `SemanticQuery` again, which the engine compiles.

Modelled as pydantic documents it: unknown fields are ignored, an alias is looked up before the field's own name, a
smart union takes the exact match (`list[dict[str, str]]`) over the one that has to build a model
(`list[SMQOrderItem]`). The values that occur are those of a dump, so no lax conversion is needed.
-/
import Langbridge.Core.Dict
import Langbridge.Core.Json

namespace Langbridge.Federation.Smq

open Core List PyText Option

section Model

variable [PyText]

/-! ## The two query models -/

/-- `DateRange = str | list[str]` -/
inductive DateRange where
  | text (s : String)
  | range (items : List String)
deriving DecidableEq

def DateRange.dump : DateRange → Json
  | .text s => .str s
  | .range l => .arr (l.map .str)

def DateRange.validate : Json → Option DateRange
  | .str s => some (.text s)
  | .arr l => (Json.asList Json.asStr (.arr l)).map .range
  | _ => none

/-- `TimeDimension`; the validator has normalised the granularity -/
structure TimeDimension where
  dimension : String
  granularity : Option String
  dateRange : Option DateRange
  compareDateRange : Option DateRange
  granularity_norm : granularity.map norm = granularity

/-- `any((member, dimension, measure, time_dimension))` -/
def namesMember (member dimension measure timeDimension : Option String) : Bool :=
  [member, dimension, measure, timeDimension].any fun o => o.any fun s => s ≠ ""

/-- `FilterItem`; the validator has checked that it names a member -/
structure FilterItem where
  member : Option String
  dimension : Option String
  measure : Option String
  timeDimension : Option String
  operator : String
  values : Option (List String)
  named : namesMember member dimension measure timeDimension = true

/-- the keys of a mapping are distinct, as those of a `dict` are -/
def entryKeys : Json → Bool
  | .obj es => (es.map Prod.fst).Nodup
  | _ => true

/-- the keys of every mapping of an order are distinct -/
def orderKeys : Json → Bool
  | .arr l => l.all entryKeys
  | v => entryKeys v

/-- `SemanticQuery` -/
structure SemanticQuery where
  measures : List String
  dimensions : List String
  timeDimensions : List TimeDimension
  filters : List FilterItem
  segments : List String
  order : Json
  limit : Option ℤ
  offset : Option ℤ
  timezone : Option String
  order_keys : orderKeys order = true

/-- `SMQTimeDimension` -/
structure SMQTimeDimension where
  dimension : String
  granularity : Option String
  dateRange : Option DateRange

/-- `SMQFilter` -/
structure SMQFilter where
  member : Option String
  dimension : Option String
  measure : Option String
  timeDimension : Option String
  operator : String
  values : List Json
  named : namesMember member dimension measure timeDimension = true

/-- `SMQOrderItem` -/
structure SMQOrderItem where
  member : String
  direction : String

/-- `list[SMQOrderItem] | dict[str, str] | list[dict[str, str]]` -/
inductive SMQOrder where
  | items (l : List SMQOrderItem)
  | dict (entries : List (String × String))
  | dicts (l : List (List (String × String)))

/-- `SMQQuery` -/
structure SMQQuery where
  measures : List String
  dimensions : List String
  timeDimensions : List SMQTimeDimension
  filters : List SMQFilter
  order : Option SMQOrder
  limit : Option ℤ
  offset : Option ℤ
  timezone : Option String

/-! ## `model_dump(by_alias=True, exclude_none=True)` -/

open Json (entry)

def TimeDimension.dump (t : TimeDimension) : Json :=
  .obj ([("dimension", .str t.dimension)] ++ entry .str "granularity" t.granularity ++
    entry DateRange.dump "dateRange" t.dateRange ++ entry DateRange.dump "compareDateRange" t.compareDateRange)

def FilterItem.dump (f : FilterItem) : Json :=
  .obj (entry .str "member" f.member ++ entry .str "dimension" f.dimension ++ entry .str "measure" f.measure ++
    entry .str "timeDimension" f.timeDimension ++ [("operator", .str f.operator)] ++
    entry (fun l : List String => .arr (l.map .str)) "values" f.values)

/-- the dump of an `Any` field: left out when it is `None` -/
def anyEntry (k : String) : Json → List (String × Json)
  | .null => []
  | v => [(k, v)]

def SemanticQuery.dump (q : SemanticQuery) : List (String × Json) :=
  [("measures", .arr (q.measures.map .str)), ("dimensions", .arr (q.dimensions.map .str)),
    ("timeDimensions", .arr (q.timeDimensions.map TimeDimension.dump)),
    ("filters", .arr (q.filters.map FilterItem.dump)), ("segments", .arr (q.segments.map .str))] ++
    anyEntry "order" q.order ++ entry .int "limit" q.limit ++ entry .int "offset" q.offset ++
    entry .str "timezone" q.timezone

def SMQTimeDimension.dump (t : SMQTimeDimension) : Json :=
  .obj ([("dimension", .str t.dimension)] ++ entry .str "granularity" t.granularity ++
    entry DateRange.dump "dateRange" t.dateRange)

def SMQFilter.dump (f : SMQFilter) : Json :=
  .obj (entry .str "member" f.member ++ entry .str "dimension" f.dimension ++ entry .str "measure" f.measure ++
    entry .str "timeDimension" f.timeDimension ++ [("operator", .str f.operator), ("values", .arr f.values)])

def SMQOrderItem.dump (o : SMQOrderItem) : Json := .obj [("member", .str o.member), ("direction", .str o.direction)]

/-- a `dict[str, str]` as a value -/
def strDict (es : List (String × String)) : Json := .obj (es.map fun e => (e.1, .str e.2))

def SMQOrder.dump : SMQOrder → Json
  | .items l => .arr (l.map SMQOrderItem.dump)
  | .dict es => strDict es
  | .dicts l => .arr (l.map strDict)

def SMQQuery.dump (q : SMQQuery) : List (String × Json) :=
  [("measures", .arr (q.measures.map .str)), ("dimensions", .arr (q.dimensions.map .str)),
    ("timeDimensions", .arr (q.timeDimensions.map SMQTimeDimension.dump)),
    ("filters", .arr (q.filters.map SMQFilter.dump))] ++
    entry SMQOrder.dump "order" q.order ++ entry .int "limit" q.limit ++ entry .int "offset" q.offset ++
    entry .str "timezone" q.timezone

/-! ## `model_validate` -/

open Json (optField defField asList asStr asInt)

/-- with `populate_by_name` the alias is tried before the name -/
def aliased (es : List (String × Json)) (al name : String) : String :=
  if (es.lookup al).isSome then al else name

def TimeDimension.validate : Json → Option TimeDimension
  | .obj es => do
    let dimension ← asStr (← es.lookup "dimension")
    let granularity ← optField asStr es "granularity"
    let dateRange ← optField DateRange.validate es (aliased es "dateRange" "date_range")
    let compareDateRange ← optField DateRange.validate es (aliased es "compareDateRange" "compare_date_range")
    return ⟨dimension, granularity.map norm, dateRange, compareDateRange, by simp [Function.comp_def]⟩
  | _ => none

def FilterItem.validate : Json → Option FilterItem
  | .obj es => do
    let member ← optField asStr es "member"
    let dimension ← optField asStr es "dimension"
    let measure ← optField asStr es "measure"
    let timeDimension ← optField asStr es (aliased es "timeDimension" "time_dimension")
    let operator ← asStr (← es.lookup "operator")
    let values ← optField (asList asStr) es "values"
    if h : namesMember member dimension measure timeDimension = true then
      return ⟨member, dimension, measure, timeDimension, operator, values, h⟩
    else none
  | _ => none

def SemanticQuery.validate (es : List (String × Json)) : Option SemanticQuery := do
  let measures ← defField (asList asStr) [] es "measures"
  let dimensions ← defField (asList asStr) [] es "dimensions"
  let timeDimensions ← defField (asList TimeDimension.validate) [] es (aliased es "timeDimensions" "time_dimensions")
  let filters ← defField (asList FilterItem.validate) [] es "filters"
  let segments ← defField (asList asStr) [] es "segments"
  let limit ← optField asInt es "limit"
  let offset ← optField asInt es "offset"
  let timezone ← optField asStr es "timezone"
  let order := (es.lookup "order").getD .null
  if h : orderKeys order = true then
    return ⟨measures, dimensions, timeDimensions, filters, segments, order, limit, offset, timezone, h⟩
  else none

def SMQTimeDimension.validate : Json → Option SMQTimeDimension
  | .obj es => do
    let dimension ← asStr (← es.lookup "dimension")
    let granularity ← optField asStr es "granularity"
    let dateRange ← optField DateRange.validate es (aliased es "dateRange" "date_range")
    return ⟨dimension, granularity, dateRange⟩
  | _ => none

def SMQFilter.validate : Json → Option SMQFilter
  | .obj es => do
    let member ← optField asStr es "member"
    let dimension ← optField asStr es "dimension"
    let measure ← optField asStr es "measure"
    let timeDimension ← optField asStr es (aliased es "timeDimension" "time_dimension")
    let operator ← asStr (← es.lookup "operator")
    let values ← defField (asList some) [] es "values"
    if h : namesMember member dimension measure timeDimension = true then
      return ⟨member, dimension, measure, timeDimension, operator, values, h⟩
    else none
  | _ => none

/-- `direction: Literal["asc", "desc"] = "asc"` -/
def directionField (es : List (String × Json)) : Option String :=
  match es.lookup "direction" with
  | none => some "asc"
  | some v => do
    let s ← asStr v
    if s = "asc" ∨ s = "desc" then some s else none

def SMQOrderItem.validate : Json → Option SMQOrderItem
  | .obj es => do
    let member ← asStr (← es.lookup "member")
    let direction ← directionField es
    return ⟨member, direction⟩
  | _ => none

/-- `dict[str, str]` -/
def strEntries (es : List (String × Json)) : Option (List (String × String)) :=
  es.mapM fun e => (asStr e.2).map fun s => (e.1, s)

def strDict? : Json → Option (List (String × String))
  | .obj es => strEntries es
  | _ => none

/-- the order union: an exact match wins at once, a list of models is second to a list of string mappings -/
def SMQOrder.validate : Json → Option SMQOrder
  | .obj es => (strEntries es).map .dict
  | .arr l =>
    match l.mapM strDict? with
    | some ds => some (.dicts ds)
    | none => (l.mapM SMQOrderItem.validate).map .items
  | _ => none

def SMQQuery.validate (es : List (String × Json)) : Option SMQQuery := do
  let measures ← defField (asList asStr) [] es "measures"
  let dimensions ← defField (asList asStr) [] es "dimensions"
  let timeDimensions ←
    defField (asList SMQTimeDimension.validate) [] es (aliased es "timeDimensions" "time_dimensions")
  let filters ← defField (asList SMQFilter.validate) [] es "filters"
  let order ← optField SMQOrder.validate es "order"
  let limit ← optField asInt es "limit"
  let offset ← optField asInt es "offset"
  let timezone ← optField asStr es "timezone"
  return ⟨measures, dimensions, timeDimensions, filters, order, limit, offset, timezone⟩

/-- the query `SMQCompiler.compile_to_sql` hands to the engine -/
def compileQuery (query : SMQQuery) : Option SemanticQuery := SemanticQuery.validate query.dump

/-- the semantic query that the federated path compiles for `q` -/
def federatedQuery (q : SemanticQuery) : Option SemanticQuery := do
  let smq ← SMQQuery.validate q.dump
  compileQuery smq

/-! ## What the engine reads of a semantic query -/

def normalizeDirection (direction : Json) : String :=
  if norm (direction.orElse (.str "asc")).text = "desc" then "DESC" else "ASC"

structure OrderItem where
  member : String
  direction : String
deriving DecidableEq

def mappingItems (es : List (String × Json)) : List OrderItem :=
  es.map fun e => ⟨e.1, normalizeDirection e.2⟩

/-- the order items of one list entry; other entries are skipped -/
def entryItems : Json → List OrderItem
  | .obj es => mappingItems es
  | .arr [m, d] => [⟨m.text, normalizeDirection d⟩]
  | _ => []

/-- `_normalize_order`; `none` is the error on an unsupported format -/
def normalizeOrder : Json → Option (List OrderItem)
  | .null => some []
  | .obj es => some (mappingItems es)
  | .arr l => some (l.flatMap entryItems)
  | _ => none

/-- what `translate` reads of a filter: `item.values or []`, and never whether the values were given -/
structure FilterRead where
  member : Option String
  dimension : Option String
  measure : Option String
  timeDimension : Option String
  operator : String
  values : List String
deriving DecidableEq

def FilterItem.read (f : FilterItem) : FilterRead :=
  ⟨f.member, f.dimension, f.measure, f.timeDimension, f.operator, f.values.getD []⟩

/-- what `translate` reads of a semantic query; a time dimension is read without its `compare_date_range` -/
structure QueryRead where
  measures : List String
  dimensions : List String
  timeDimensions : List (String × Option String × Option DateRange)
  filters : List FilterRead
  segments : List String
  order : Option (List OrderItem)
  limit : Option ℤ
  offset : Option ℤ
deriving DecidableEq

def TimeDimension.read (t : TimeDimension) : String × Option String × Option DateRange :=
  (t.dimension, t.granularity, t.dateRange)

def SemanticQuery.read (q : SemanticQuery) : QueryRead where
  measures := q.measures
  dimensions := q.dimensions
  timeDimensions := q.timeDimensions.map TimeDimension.read
  filters := q.filters.map FilterItem.read
  segments := q.segments
  order := normalizeOrder q.order
  limit := q.limit
  offset := q.offset

/-! ## The round trip, field by field -/

omit [PyText] in
@[simp] theorem DateRange.validate_dump (d : DateRange) : DateRange.validate d.dump = some d := by
  cases d with
  | text s => rfl
  | range l => simp only [DateRange.dump, DateRange.validate, Json.asList_asStr, map_some]

omit [PyText] in
@[simp] theorem DateRange.isNull_dump (d : DateRange) : d.dump.isNull = false := by
  cases d <;> rfl

def TimeDimension.forget (t : TimeDimension) : TimeDimension := { t with compareDateRange := none }

def FilterItem.fill (f : FilterItem) : FilterItem := { f with values := some (f.values.getD []) }

theorem SMQTimeDimension.validate_dump (t : TimeDimension) :
    SMQTimeDimension.validate t.dump = some ⟨t.dimension, t.granularity, t.dateRange⟩ := by
  obtain ⟨d, g, r, c, hg⟩ := t
  cases g <;> cases r <;> cases c <;>
    simp [TimeDimension.dump, SMQTimeDimension.validate, Json.entry, aliased, Json.optField, Json.field?, Option.filter, List.lookup_cons]

/-- a time dimension arrives without its compared range -/
theorem TimeDimension.validate_dump (t : TimeDimension) :
    TimeDimension.validate (SMQTimeDimension.dump ⟨t.dimension, t.granularity, t.dateRange⟩) = some t.forget := by
  obtain ⟨d, g, r, c, hg⟩ := t
  cases g <;> cases r <;>
    simp_all [SMQTimeDimension.dump, TimeDimension.validate, Json.entry, aliased, Json.optField, Json.field?, Option.filter,
      List.lookup_cons, TimeDimension.forget]

omit [PyText] in
theorem SMQFilter.validate_dump (f : FilterItem) :
    SMQFilter.validate f.dump =
      some ⟨f.member, f.dimension, f.measure, f.timeDimension, f.operator, (f.values.getD []).map .str, f.named⟩ := by
  obtain ⟨m, d, e, t, o, v, h⟩ := f
  cases m <;> cases d <;> cases e <;> cases t <;> cases v <;>
    simp [FilterItem.dump, SMQFilter.validate, Json.entry, aliased, Json.optField, Json.defField, Json.field?, Option.filter,
      List.lookup_cons, h]

omit [PyText] in
/-- a filter arrives with its values given -/
theorem FilterItem.validate_dump (f : FilterItem) :
    FilterItem.validate (SMQFilter.dump ⟨f.member, f.dimension, f.measure, f.timeDimension, f.operator,
      (f.values.getD []).map .str, f.named⟩) = some f.fill := by
  obtain ⟨m, d, e, t, o, v, h⟩ := f
  cases m <;> cases d <;> cases e <;> cases t <;>
    simp [SMQFilter.dump, FilterItem.validate, Json.entry, aliased, Json.optField, Json.field?, Option.filter, List.lookup_cons, h,
      FilterItem.fill]

/-! ## The round trip of a query -/

/-- the order that arrives: what the union validates, dumped again -/
def orderThrough (order : Json) : Option Json :=
  if order.isNull then some .null else (SMQOrder.validate order).map SMQOrder.dump

/-- the query that arrives when the order arrives as `order` -/
def SemanticQuery.arrives (q : SemanticQuery) (order : Json) (h : orderKeys order = true) : SemanticQuery :=
  { q with
    timeDimensions := q.timeDimensions.map TimeDimension.forget
    filters := q.filters.map FilterItem.fill
    segments := []
    order := order
    order_keys := h }

/-- the parsed order of an SMQ payload -/
def smqOrder (order : Json) : Option (Option SMQOrder) :=
  if order.isNull then some none else (SMQOrder.validate order).map some

omit [PyText] in
theorem anyEntry_eq (k : String) (v : Json) : anyEntry k v = if v.isNull then [] else [(k, v)] := by
  cases v <;> rfl

omit [PyText] in
@[simp] theorem SMQOrder.isNull_dump (o : SMQOrder) : o.dump.isNull = false := by
  cases o <;> rfl

/-- what `SMQQuery` reads of a dumped query: everything but the segments -/
theorem SMQQuery.validate_dump (q : SemanticQuery) :
    SMQQuery.validate q.dump = (smqOrder q.order).map fun o =>
      { measures := q.measures
        dimensions := q.dimensions
        timeDimensions := q.timeDimensions.map fun t => ⟨t.dimension, t.granularity, t.dateRange⟩
        filters := q.filters.map fun f => ⟨f.member, f.dimension, f.measure, f.timeDimension, f.operator,
          (f.values.getD []).map .str, f.named⟩
        order := o
        limit := q.limit
        offset := q.offset
        timezone := q.timezone } := by
  obtain ⟨ms, ds, ts, fs, ss, o, l, k, z, h⟩ := q
  have ht := Json.asList_map TimeDimension.dump SMQTimeDimension.validate _ ts SMQTimeDimension.validate_dump
  have hf := Json.asList_map FilterItem.dump SMQFilter.validate _ fs SMQFilter.validate_dump
  cases hn : o.isNull <;> cases l <;> cases k <;> cases z <;>
    simp [SMQQuery.validate, SemanticQuery.dump, anyEntry_eq, smqOrder, aliased, Json.entry, Json.optField,
      Json.defField, Json.field?, Option.filter, List.lookup_cons, hn, ht, hf, map_eq_bind]

/-- what the engine's model reads of a dumped `SMQQuery` -/
theorem SemanticQuery.validate_dump (q : SemanticQuery) (o : Option SMQOrder) :
    compileQuery
      { measures := q.measures
        dimensions := q.dimensions
        timeDimensions := q.timeDimensions.map fun t => ⟨t.dimension, t.granularity, t.dateRange⟩
        filters := q.filters.map fun f => ⟨f.member, f.dimension, f.measure, f.timeDimension, f.operator,
          (f.values.getD []).map .str, f.named⟩
        order := o
        limit := q.limit
        offset := q.offset
        timezone := q.timezone } =
      if h : orderKeys ((o.map SMQOrder.dump).getD .null) = true then
        some (q.arrives ((o.map SMQOrder.dump).getD .null) h) else none := by
  obtain ⟨ms, ds, ts, fs, ss, q_o, l, k, z, h⟩ := q
  have ht := Json.asList_map _ TimeDimension.validate _ ts TimeDimension.validate_dump
  have hf := Json.asList_map _ FilterItem.validate _ fs FilterItem.validate_dump
  cases o <;> cases l <;> cases k <;> cases z <;>
    simp [compileQuery, SemanticQuery.validate, SMQQuery.dump, aliased, Json.entry, Json.optField,
      Json.defField, Json.field?, Option.filter, List.lookup_cons, ht, hf, Function.comp_def, SemanticQuery.arrives]

/-- **The round trip.** Everything but the order arrives unconditionally: without the segments, without the compared
ranges, and with the filters' values given. -/
theorem federatedQuery_eq (q : SemanticQuery) :
    federatedQuery q = (orderThrough q.order).bind fun o =>
      if h : orderKeys o = true then some (q.arrives o h) else none := by
  rw [federatedQuery, SMQQuery.validate_dump, smqOrder, orderThrough]
  split_ifs with hn
  · exact SemanticQuery.validate_dump q none
  · cases SMQOrder.validate q.order with
    | none => rfl
    | some o => exact SemanticQuery.validate_dump q (some o)

/-! ## The order -/

/-- a mapping whose values are strings -/
def StrMapping : Json → Prop
  | .obj es => ∀ e ∈ es, ∃ s, e.2 = .str s
  | _ => False

def OrderSurvives : Json → Prop
  | .null => True
  | .arr l => ∀ v ∈ l, StrMapping v
  | v => StrMapping v

omit [PyText] in
theorem strDict_of_strDict? (v : Json) (d : List (String × String)) (h : strDict? v = some d) : strDict d = v := by
  cases v with
  | obj es =>
    refine congrArg Json.obj (Json.map_of_mapM _ _ es d ?_ h)
    rintro ⟨k, v⟩ e he
    cases v with
    | str s =>
      simp only [asStr, map_some, Option.some.injEq] at he
      rw [← he]
    | _ => simp [asStr] at he
  | _ => cases h

omit [PyText] in
theorem strDict?_iff (v : Json) : (∃ d, strDict? v = some d) ↔ StrMapping v := by
  cases v with
  | obj es =>
    constructor
    · rintro ⟨d, hd⟩ e he
      obtain ⟨c, hc⟩ := Json.isSome_of_mapM _ es d hd e he
      obtain ⟨k, v⟩ := e
      cases v with
      | str s => exact ⟨s, rfl⟩
      | _ => simp [asStr] at hc
    · intro h
      refine Json.mapM_isSome _ es fun e he => ?_
      obtain ⟨s, hs⟩ := h e he
      exact ⟨(e.1, s), by rw [hs]; rfl⟩
  | _ => simp [strDict?, StrMapping]

omit [PyText] in
/-- an order of a surviving shape arrives as it is -/
theorem orderThrough_of_survives (o : Json) (h : OrderSurvives o) : orderThrough o = some o := by
  cases o with
  | null => rfl
  | obj es =>
    obtain ⟨d, hd⟩ := (strDict?_iff (.obj es)).2 h
    have hdump : strDict d = .obj es := strDict_of_strDict? (.obj es) d hd
    simp only [strDict?] at hd
    simp [orderThrough, SMQOrder.validate, hd, SMQOrder.dump, hdump]
  | arr l =>
    obtain ⟨ds, hds⟩ := Json.mapM_isSome strDict? l fun v hv => (strDict?_iff v).2 (h v hv)
    have hdump : ds.map strDict = l := Json.map_of_mapM strDict? strDict l ds strDict_of_strDict? hds
    simp [orderThrough, SMQOrder.validate, hds, SMQOrder.dump, hdump]
  | _ => exact h.elim

/-- the keys the engine reads as members of the order entries of a list -/
theorem key_mem_items (l : List Json) (es : List (String × Json)) (hes : .obj es ∈ l) (e : String × Json)
    (he : e ∈ es) : e.1 ∈ (l.flatMap entryItems).map OrderItem.member := by
  refine mem_map.2 ⟨⟨e.1, normalizeDirection e.2⟩, mem_flatMap.2 ⟨.obj es, hes, ?_⟩, rfl⟩
  exact mem_map.2 ⟨e, he, rfl⟩

theorem items_member (its : List SMQOrderItem) (m : String)
    (hm : m ∈ ((its.map SMQOrderItem.dump).flatMap entryItems).map OrderItem.member) :
    m = "member" ∨ m = "direction" := by
  obtain ⟨i, hi, rfl⟩ := mem_map.1 hm
  obtain ⟨v, hv, hiv⟩ := mem_flatMap.1 hi
  obtain ⟨it, _, rfl⟩ := mem_map.1 hv
  simp only [SMQOrderItem.dump, entryItems, mappingItems, map_cons, map_nil, mem_cons,
    not_mem_nil, or_false] at hiv
  rcases hiv with rfl | rfl
  · exact .inl rfl
  · exact .inr rfl

omit [PyText] in
/-- an entry read as `SMQOrderItem` whose only keys are the model's fields is a mapping to strings -/
theorem strMapping_of_item (es : List (String × Json)) (hnd : (es.map Prod.fst).Nodup) (it : SMQOrderItem)
    (hit : SMQOrderItem.validate (.obj es) = some it)
    (hk : ∀ e ∈ es, e.1 = "member" ∨ e.1 = "direction") : StrMapping (.obj es) := by
  rintro ⟨k, v⟩ he
  have hlook : es.lookup k = some v := (Dict.lookup_eq_some_iff es hnd k v).2 he
  obtain ⟨mv, hmv, hit⟩ := bind_eq_some_iff.1 hit
  obtain ⟨m, hm, hit⟩ := bind_eq_some_iff.1 hit
  obtain ⟨d, hd, _⟩ := bind_eq_some_iff.1 hit
  have hstr : ∃ s, asStr v = some s := by
    rcases hk (k, v) he with rfl | rfl
    · rw [hlook, Option.some.injEq] at hmv
      exact ⟨m, hmv ▸ hm⟩
    · rw [directionField, hlook] at hd
      obtain ⟨s, hs, _⟩ := bind_eq_some_iff.1 hd
      exact ⟨s, hs⟩
  obtain ⟨s, hs⟩ := hstr
  cases v with
  | str t => exact ⟨t, rfl⟩
  | _ => cases hs

/-- an order that arrives and is read like the original has a surviving shape -/
theorem survives_of_read (o o' : Json) (hk : orderKeys o = true) (hs : (normalizeOrder o).isSome)
    (ht : orderThrough o = some o') (hr : normalizeOrder o' = normalizeOrder o) : OrderSurvives o := by
  cases o with
  | null => trivial
  | obj es =>
    simp only [orderThrough, Json.isNull_obj, SMQOrder.validate, Option.map_map] at ht
    obtain ⟨d, hd, _⟩ := Option.map_eq_some_iff.1 ht
    exact (strDict?_iff (.obj es)).1 ⟨d, hd⟩
  | arr l =>
    intro v hv
    cases hds : l.mapM strDict? with
    | some ds => exact (strDict?_iff v).1 (Json.isSome_of_mapM strDict? l ds hds v hv)
    | none =>
      simp only [orderThrough, Json.isNull_arr, SMQOrder.validate, hds, Option.map_map] at ht
      obtain ⟨its, hits, rfl⟩ := Option.map_eq_some_iff.1 ht
      have hitems : (its.map SMQOrderItem.dump).flatMap entryItems = l.flatMap entryItems := by
        simpa [SMQOrder.dump, normalizeOrder] using hr
      obtain ⟨it, hit⟩ := Json.isSome_of_mapM _ l its hits v hv
      cases v with
      | obj es =>
        have hnd : (es.map Prod.fst).Nodup := by
          simpa [entryKeys] using all_eq_true.1 hk _ hv
        refine strMapping_of_item es hnd it hit fun e he => items_member its e.1 ?_
        rw [hitems]
        exact key_mem_items l es hv e he
      | _ => cases hit
  | _ => simp [normalizeOrder] at hs

/-! ## The round trip of a whole query -/

/-- what the engine reads of the query that arrives differs in the segments and the order only -/
theorem read_arrives (q : SemanticQuery) (o : Json) (h : orderKeys o = true) :
    (q.arrives o h).read = { q.read with segments := [], order := normalizeOrder o } := by
  have ht : (q.timeDimensions.map TimeDimension.forget).map TimeDimension.read =
      q.timeDimensions.map TimeDimension.read := by
    rw [List.map_map]
    rfl
  have hf : (q.filters.map FilterItem.fill).map FilterItem.read = q.filters.map FilterItem.read := by
    rw [List.map_map]
    rfl
  simp only [SemanticQuery.read, SemanticQuery.arrives, ht, hf]

/-- the query that arrives, when one does -/
theorem arrives_of_federatedQuery (q q' : SemanticQuery) (h : federatedQuery q = some q') :
    ∃ o, ∃ ho : orderKeys o = true, orderThrough q.order = some o ∧ q' = q.arrives o ho := by
  rw [federatedQuery_eq] at h
  obtain ⟨o, ho, h⟩ := bind_eq_some_iff.1 h
  split_ifs at h with hk
  exact ⟨o, hk, ho, (Option.some.inj h).symm⟩

theorem federatedQuery_of_survives (q : SemanticQuery) (h : OrderSurvives q.order) :
    federatedQuery q = some (q.arrives q.order q.order_keys) := by
  rw [federatedQuery_eq, orderThrough_of_survives q.order h, bind_some, dif_pos q.order_keys]

/-- **Segments never arrive.** Whatever the query, the one the federated path compiles has no segments. -/
theorem segments_dropped (q q' : SemanticQuery) (h : federatedQuery q = some q') : q'.segments = [] := by
  obtain ⟨o, ho, _, rfl⟩ := arrives_of_federatedQuery q q' h
  rfl

theorem forget_eq_iff (t : TimeDimension) : t.forget = t ↔ t.compareDateRange = none := by
  obtain ⟨d, g, r, c, hg⟩ := t
  simp [TimeDimension.forget, eq_comm]

omit [PyText] in
theorem fill_eq_iff (f : FilterItem) : f.fill = f ↔ f.values.isSome := by
  obtain ⟨m, d, e, t, o, v, h⟩ := f
  cases v <;> simp [FilterItem.fill]

theorem arrives_eq_iff (q : SemanticQuery) : q.arrives q.order q.order_keys = q ↔
    q.segments = [] ∧ (∀ t ∈ q.timeDimensions, t.compareDateRange = none) ∧ ∀ f ∈ q.filters, f.values.isSome := by
  have ht : q.timeDimensions.map TimeDimension.forget = q.timeDimensions ↔
      ∀ t ∈ q.timeDimensions, t.compareDateRange = none := by
    have h := map_inj_left (l := q.timeDimensions) (f := TimeDimension.forget) (g := id)
    rw [List.map_id] at h
    exact h.trans (forall₂_congr fun t _ => forget_eq_iff t)
  have hf : q.filters.map FilterItem.fill = q.filters ↔ ∀ f ∈ q.filters, f.values.isSome := by
    have h := map_inj_left (l := q.filters) (f := FilterItem.fill) (g := id)
    rw [List.map_id] at h
    exact h.trans (forall₂_congr fun f _ => fill_eq_iff f)
  obtain ⟨ms, ds, ts, fs, ss, o, l, k, z, h⟩ := q
  simp only [SemanticQuery.arrives, SemanticQuery.mk.injEq] at ht hf ⊢
  tauto

/-- **When a semantic query survives the federated path.** For an order the engine accepts, the query that
`SMQQuery` and `SMQCompiler` hand to the engine is read like the original exactly when there are no segments and the
order is absent, a mapping to strings or a list of such mappings; it is the original itself exactly when moreover no
time dimension compares ranges and every filter gives its values. -/
theorem smq_roundtrip_iff (q : SemanticQuery) (ho : (normalizeOrder q.order).isSome) :
    ((∃ q', federatedQuery q = some q' ∧ q'.read = q.read) ↔ q.segments = [] ∧ OrderSurvives q.order) ∧
    (federatedQuery q = some q ↔ q.segments = [] ∧ OrderSurvives q.order ∧
      (∀ t ∈ q.timeDimensions, t.compareDateRange = none) ∧ ∀ f ∈ q.filters, f.values.isSome) := by
  have hread : (∃ q', federatedQuery q = some q' ∧ q'.read = q.read) → q.segments = [] ∧ OrderSurvives q.order := by
    rintro ⟨q', hq', hr⟩
    obtain ⟨o, hk, ht, rfl⟩ := arrives_of_federatedQuery q q' hq'
    have hseg : [] = q.segments := congrArg QueryRead.segments hr
    have hord : normalizeOrder o = normalizeOrder q.order := congrArg QueryRead.order hr
    exact ⟨hseg.symm, survives_of_read q.order o q.order_keys ho ht hord⟩
  refine ⟨⟨hread, ?_⟩, ?_, ?_⟩
  · rintro ⟨hseg, hord⟩
    refine ⟨_, federatedQuery_of_survives q hord, ?_⟩
    rw [read_arrives]
    change { q.read with segments := [], order := q.read.order } = q.read
    have hseg' : q.read.segments = [] := hseg
    rw [← hseg']
  · intro h
    obtain ⟨hseg, hord⟩ := hread ⟨q, h, rfl⟩
    rw [federatedQuery_of_survives q hord, Option.some.injEq, arrives_eq_iff] at h
    exact ⟨hseg, hord, h.2⟩
  · rintro ⟨hseg, hord, hrest⟩
    rw [federatedQuery_of_survives q hord, Option.some.injEq, arrives_eq_iff]
    exact ⟨hseg, hrest⟩

end Model

/-! ## Witnesses -/

section Witness

open scoped Ascii

/-- revenue of paid orders by month: the restriction to paid orders is a segment -/
def paidRevenue : SemanticQuery where
  measures := ["orders.revenue"]
  dimensions := []
  timeDimensions := [⟨"orders.created_at", some "month", some (.text "last year"), none, by decide⟩]
  filters := [⟨some "orders.country", none, none, none, "equals", some ["DE"], by decide⟩]
  segments := ["orders.paid"]
  order := .obj [("orders.revenue", .str "desc")]
  limit := some 10
  offset := none
  timezone := none
  order_keys := by decide

/-- **A segment is lost.** The query on paid orders arrives as the query on all orders. -/
theorem paidRevenue_loses_segment :
    (normalizeOrder paidRevenue.order).isSome ∧
    (federatedQuery paidRevenue).map SemanticQuery.segments = some [] ∧
    ¬ ∃ q', federatedQuery paidRevenue = some q' ∧ q'.read = paidRevenue.read := by
  refine ⟨rfl, rfl, ?_⟩
  rintro ⟨q', hq', hr⟩
  have hseg : q'.segments = ["orders.paid"] := congrArg QueryRead.segments hr
  rw [segments_dropped paidRevenue q' hq'] at hseg
  exact absurd hseg (by decide)

/-- the same query without the segment arrives as it is -/
theorem allRevenue_survives :
    federatedQuery { paidRevenue with segments := [] } = some { paidRevenue with segments := [] } := by
  refine (smq_roundtrip_iff { paidRevenue with segments := [] } rfl).2.2 ⟨rfl, ?_, ?_, ?_⟩
  · intro e he
    obtain rfl := mem_singleton.1 he
    exact ⟨"desc", rfl⟩
  · intro t ht
    simp only [paidRevenue, mem_singleton] at ht
    rw [ht]
  · intro f hf
    simp only [paidRevenue, mem_singleton] at hf
    rw [hf]
    rfl

end Witness

end Langbridge.Federation.Smq
