/-
Typed records that are dumped to JSON-like values and validated from them: a codec has both directions, and `Reads`
says what the dump of a value is validated as. Validation looks a record's fields up by key and ignores other keys.

Main results:
- `optional_reads`, `list_reads`, `dict_reads`: what is read of a part is read of the whole.
- `anyValue_read`: a value of an `Any` field comes back as the value it was dumped as, which it is exactly when every
  part of it is of a type that JSON has.
-/
import Langbridge.Core.Dict
import Langbridge.Core.Json

namespace Langbridge.Core

open List Dict Option

/-- `{k: f(v) for k, v in d.items()}` -/
def Dict.mapValues {α β γ : Type} (f : β → γ) (d : Dict α β) : Dict α γ :=
  ⟨d.entries.map fun e => (e.1, f e.2), by simpa [List.map_map, Function.comp_def] using d.nodup⟩

theorem Dict.mapValues_id {α β : Type} (d : Dict α β) : d.mapValues id = d :=
  Dict.ext (List.map_id d.entries)

theorem Dict.mapValues_eq_self_iff {α β : Type} (f : β → β) (d : Dict α β) :
    d.mapValues f = d ↔ ∀ e ∈ d.entries, f e.2 = e.2 := by
  rw [Dict.ext_iff, mapValues]
  conv_lhs => rhs; rw [← List.map_id d.entries]
  rw [map_inj_left]
  simp only [id, Prod.ext_iff, true_and]

structure Codec (α : Type) where
  dump : α → Json
  validate : Json → Option α

namespace Codec

variable {α : Type}

/-- the dump of each value is validated as its image -/
def Reads (c : Codec α) (g : α → α) : Prop := ∀ a, c.validate (c.dump a) = some (g a)

/-- no value is dumped as `None` -/
def NeverNull (c : Codec α) : Prop := ∀ a, c.dump a ≠ .null

/-! ## Types of fields -/

def text : Codec String := ⟨.str, Json.asStr⟩

def integer : Codec ℤ := ⟨.int, Json.asInt⟩

/-- a finite float, by its text -/
def float : Codec String :=
  ⟨.float, fun | .float t => some t
               | _ => none⟩

def boolean : Codec Bool :=
  ⟨.bool, fun | .bool b => some b
              | _ => none⟩

/-- `T | None` -/
def optional (c : Codec α) : Codec (Option α) :=
  ⟨fun | none => .null
       | some a => c.dump a,
   fun | .null => some none
       | v => (c.validate v).map some⟩

/-- `list[T]` -/
def list (c : Codec α) : Codec (List α) := ⟨fun l => .arr (l.map c.dump), Json.asList c.validate⟩

/-- the values of a mapping are validated in turn -/
def validateEntries (c : Codec α) (es : List (String × Json)) : Option (List (String × α)) :=
  es.mapM fun e => (c.validate e.2).map fun a => (e.1, a)

/-- `dict[str, T]` -/
def dict (c : Codec α) : Codec (Dict String α) :=
  ⟨fun d => .obj (d.entries.map fun e => (e.1, c.dump e.2)),
   fun | .obj es => do
         let entries ← c.validateEntries es
         if h : (entries.map Prod.fst).Nodup then some ⟨entries, h⟩ else none
       | _ => none⟩

theorem text_reads : text.Reads id := fun _ => rfl

theorem float_reads : float.Reads id := fun _ => rfl

@[simp] theorem text_validate (s : String) : text.validate (text.dump s) = some s := rfl

@[simp] theorem integer_validate (i : ℤ) : integer.validate (integer.dump i) = some i := rfl

theorem boolean_reads : boolean.Reads id := fun _ => rfl

theorem boolean_neverNull : boolean.NeverNull := by
  intro a h
  cases h

theorem list_neverNull (c : Codec α) : c.list.NeverNull := by
  intro a h
  cases h

theorem text_neverNull : text.NeverNull := by
  intro a h
  cases h

theorem float_neverNull : float.NeverNull := by
  intro a h
  cases h

theorem dict_neverNull (c : Codec α) : c.dict.NeverNull := by
  intro a h
  cases h

theorem validate_optional (c : Codec α) {v : Json} (hv : v ≠ .null) :
    c.optional.validate v = (c.validate v).map some := by
  cases v with
  | null => exact absurd rfl hv
  | bool b => rfl
  | int i => rfl
  | float t => rfl
  | str s => rfl
  | arr l => rfl
  | obj es => rfl

variable {c : Codec α} {g : α → α}

theorem optional_reads (h : c.Reads g) (hnull : c.NeverNull) : c.optional.Reads (Option.map g) := by
  intro o
  cases o with
  | none => rfl
  | some a =>
    change c.optional.validate (c.dump a) = _
    rw [validate_optional c (hnull a), h a]
    rfl

theorem list_reads (h : c.Reads g) : c.list.Reads (List.map g) :=
  fun l => Json.asList_map c.dump c.validate g l h

theorem validateEntries_dump (h : c.Reads g) (es : List (String × α)) :
    c.validateEntries (es.map fun e => (e.1, c.dump e.2)) = some (es.map fun e => (e.1, g e.2)) := by
  apply Json.mapM_map_eq (fun e : String × α => (e.1, c.dump e.2)) _ fun e => (e.1, g e.2)
  intro e he
  rw [h e.2]
  rfl

theorem dict_reads (h : c.Reads g) : c.dict.Reads (Dict.mapValues g) := by
  intro d
  change (c.validateEntries (d.entries.map fun e => (e.1, c.dump e.2))).bind _ = _
  rw [validateEntries_dump h d.entries, bind_some]
  have hnodup : ((d.entries.map fun e => (e.1, g e.2)).map Prod.fst).Nodup := (d.mapValues g).nodup
  exact dif_pos hnodup

/-- a change of the values that validation does not see changes nothing -/
theorem validateEntries_map (c : Codec α) (f : Json → Json) (h : ∀ v, c.validate (f v) = c.validate v)
    (es : List (String × Json)) :
    c.validateEntries (es.map fun e => (e.1, f e.2)) = c.validateEntries es := by
  induction es with
  | nil => rfl
  | cons e es ih =>
    rw [validateEntries, validateEntries] at ih ⊢
    rw [map_cons, mapM_cons, mapM_cons, ih, h]

/-! ## Fields of a record -/

/-- a field without a default -/
def required (c : Codec α) (es : List (String × Json)) (key : String) : Option α := (es.lookup key).bind c.validate

/-- a field with a default -/
def defaulted (c : Codec α) (dflt : α) (es : List (String × Json)) (key : String) : Option α :=
  match es.lookup key with
  | none => some dflt
  | some v => c.validate v

@[simp] theorem required_cons_self (c : Codec α) (key : String) (v : Json) (es : List (String × Json)) :
    c.required ((key, v) :: es) key = c.validate v := by
  rw [required, lookup_cons_self, bind_some]

variable {key k : String}

@[simp] theorem required_cons_of_ne (c : Codec α) (h : key ≠ k) (v : Json)
    (es : List (String × Json)) : c.required ((k, v) :: es) key = c.required es key := by
  rw [required, required, lookup_cons_ne h]

@[simp] theorem defaulted_cons_self (c : Codec α) (dflt : α) (key : String) (v : Json) (es : List (String × Json)) :
    c.defaulted dflt ((key, v) :: es) key = c.validate v := by
  rw [defaulted, lookup_cons_self]

@[simp] theorem defaulted_cons_of_ne (c : Codec α) (dflt : α) (h : key ≠ k) (v : Json)
    (es : List (String × Json)) : c.defaulted dflt ((k, v) :: es) key = c.defaulted dflt es key := by
  rw [defaulted, defaulted, lookup_cons_ne h]

/-- a further entry under another key is not seen -/
@[simp] theorem required_snoc_of_ne (c : Codec α) (h : key ≠ k) (v : Json)
    (es : List (String × Json)) : c.required (es ++ [(k, v)]) key = c.required es key := by
  rw [required, required, lookup_append, lookup_cons_ne h, lookup_nil, or_none]

@[simp] theorem defaulted_snoc_of_ne (c : Codec α) (dflt : α) (h : key ≠ k) (v : Json)
    (es : List (String × Json)) : c.defaulted dflt (es ++ [(k, v)]) key = c.defaulted dflt es key := by
  rw [defaulted, defaulted, lookup_append, lookup_cons_ne h, lookup_nil, or_none]

@[simp] theorem defaulted_nil (c : Codec α) (dflt : α) (key : String) : c.defaulted dflt [] key = some dflt := rfl

/-! ## Mappings changed in place -/

/-- the value under one key is changed -/
def updateEntries (key : String) (f : Json → Json) (es : List (String × Json)) : List (String × Json) :=
  es.map fun e => (e.1, if e.1 = key then f e.2 else e.2)

theorem lookup_updateEntries (key : String) (f : Json → Json) (es : List (String × Json)) (k : String) :
    (updateEntries key f es).lookup k = (es.lookup k).map fun v => if k = key then f v else v := by
  induction es with
  | nil => rfl
  | cons e es ih =>
    obtain ⟨k', v⟩ := e
    rw [updateEntries, map_cons]
    by_cases h : k = k'
    · rw [h, lookup_cons_self, lookup_cons_self]
      rfl
    · rw [lookup_cons_ne h, lookup_cons_ne h]
      exact ih

@[simp] theorem required_updateEntries_of_ne (c : Codec α) (f : Json → Json) (h : k ≠ key)
    (es : List (String × Json)) : c.required (updateEntries key f es) k = c.required es k := by
  simp only [required, lookup_updateEntries, if_neg h, Option.map_id']

@[simp] theorem defaulted_updateEntries_of_ne (c : Codec α) (dflt : α) (f : Json → Json)
    (h : k ≠ key) (es : List (String × Json)) : c.defaulted dflt (updateEntries key f es) k = c.defaulted dflt es k := by
  simp only [defaulted, lookup_updateEntries, if_neg h, Option.map_id']

/-- a change that validation does not see changes nothing -/
theorem required_updateEntries (c : Codec α) (f : Json → Json) (h : ∀ v, c.validate (f v) = c.validate v)
    (key : String) (es : List (String × Json)) : c.required (updateEntries key f es) key = c.required es key := by
  rw [required, required, lookup_updateEntries]
  cases es.lookup key with
  | none => rfl
  | some v =>
    change c.validate (if key = key then f v else v) = c.validate v
    rw [if_pos rfl, h]

end Codec

/-! ## Values of `Any` fields -/

/-- a value of an `Any` field: one that JSON has, or one of another Python type (a UUID, a date, a tuple, a set, an
infinite float), with the value that it is dumped as -/
inductive AnyValue where
  | null
  | bool (b : Bool)
  | int (i : ℤ)
  | float (text : String)
  | str (s : String)
  | arr (items : List AnyValue)
  | obj (entries : List (String × AnyValue))
  | other (typeName text : String) (dumped : Json)

namespace AnyValue

mutual

/-- the value as `mode="json"` dumps it -/
def dump : AnyValue → Json
  | null => .null
  | bool b => .bool b
  | int i => .int i
  | float t => .float t
  | str s => .str s
  | arr l => .arr (dumpItems l)
  | obj es => .obj (dumpEntries es)
  | other _ _ v => v

def dumpItems : List AnyValue → List Json
  | [] => []
  | v :: l => v.dump :: dumpItems l

def dumpEntries : List (String × AnyValue) → List (String × Json)
  | [] => []
  | (k, v) :: es => (k, v.dump) :: dumpEntries es

end

mutual

/-- `Any` keeps what it is given -/
def ofJson : Json → AnyValue
  | .null => null
  | .bool b => bool b
  | .int i => int i
  | .float t => float t
  | .str s => str s
  | .arr l => arr (ofItems l)
  | .obj es => obj (ofEntries es)

def ofItems : List Json → List AnyValue
  | [] => []
  | v :: l => ofJson v :: ofItems l

def ofEntries : List (String × Json) → List (String × AnyValue)
  | [] => []
  | (k, v) :: es => (k, ofJson v) :: ofEntries es

end

mutual

/-- every part of the value is of a type that JSON has -/
def isPlain : AnyValue → Bool
  | arr l => itemsPlain l
  | obj es => entriesPlain es
  | other _ _ _ => false
  | _ => true

def itemsPlain : List AnyValue → Bool
  | [] => true
  | v :: l => v.isPlain && itemsPlain l

def entriesPlain : List (String × AnyValue) → Bool
  | [] => true
  | (_, v) :: es => v.isPlain && entriesPlain es

end

/-- the value that comes back when it is dumped and validated -/
def read (v : AnyValue) : AnyValue := ofJson v.dump

mutual

/-- **What comes back is what was dumped** exactly when every part is of a type that JSON has. -/
theorem anyValue_read (v : AnyValue) : ofJson v.dump = v ↔ v.isPlain = true := by
  cases v with
  | null => simp [dump, ofJson, isPlain]
  | bool b => simp [dump, ofJson, isPlain]
  | int i => simp [dump, ofJson, isPlain]
  | float t => simp [dump, ofJson, isPlain]
  | str s => simp [dump, ofJson, isPlain]
  | arr l => rw [dump, ofJson, isPlain, arr.injEq, items_read l]
  | obj es => rw [dump, ofJson, isPlain, obj.injEq, entries_read es]
  | other name text v =>
    rw [dump, isPlain]
    cases v <;> simp [ofJson]

theorem items_read (l : List AnyValue) : ofItems (dumpItems l) = l ↔ itemsPlain l = true := by
  cases l with
  | nil => simp [dumpItems, ofItems, itemsPlain]
  | cons v l => rw [dumpItems, ofItems, itemsPlain, List.cons.injEq, Bool.and_eq_true, anyValue_read v, items_read l]

theorem entries_read (es : List (String × AnyValue)) : ofEntries (dumpEntries es) = es ↔ entriesPlain es = true := by
  cases es with
  | nil => simp [dumpEntries, ofEntries, entriesPlain]
  | cons e es =>
    obtain ⟨k, v⟩ := e
    rw [dumpEntries, ofEntries, entriesPlain, List.cons.injEq, Bool.and_eq_true, Prod.mk.injEq, anyValue_read v,
      entries_read es]
    simp

end

end AnyValue

/-! ## Dumps without `None`, of models that allow undeclared attributes -/

/-- the entries that `exclude_none=True` leaves -/
def present (es : List (String × Json)) : List (String × Json) := es.filter fun e => !e.2.isNull

theorem lookup_present {es : List (String × Json)} (h : (es.map Prod.fst).Nodup) (key : String) :
    (present es).lookup key = (es.lookup key).filter fun v => !v.isNull := by
  induction es with
  | nil => rfl
  | cons e es ih =>
    obtain ⟨k, v⟩ := e
    rw [map_cons, nodup_cons] at h
    have hrest := ih h.2
    rw [present] at hrest ⊢
    by_cases hk : key = k
    · subst hk
      have hnone : es.lookup key = none := by
        rw [lookup_eq_none_iff]
        intro e he
        rw [bne_iff_ne]
        exact fun heq => h.1 (mem_map.2 ⟨e, he, heq.symm⟩)
      rw [hnone] at hrest
      cases hnull : v.isNull with
      | true => rw [filter_cons_of_neg (by simp [hnull]), hrest]; simp [Option.filter, hnull]
      | false => rw [filter_cons_of_pos (by simp [hnull]), lookup_cons_self]; simp [Option.filter, hnull]
    · rw [lookup_cons_ne hk, ← hrest, filter_cons]
      split_ifs
      · rw [lookup_cons_ne hk]
      · rfl

/-- attributes of a model besides its fields -/
structure Extras (names : List String) where
  entries : List (String × AnyValue)
  undeclared : ∀ e ∈ entries, e.1 ∉ names

namespace Extras

variable {names : List String}

@[ext] theorem ext {x y : Extras names} (h : x.entries = y.entries) : x = y := by
  cases x
  cases h
  rfl

def empty : Extras names := ⟨[], fun _ h => nomatch h⟩

end Extras

namespace AnyValue

theorem mem_ofEntries {es : List (String × Json)} {e : String × AnyValue} (h : e ∈ ofEntries es) :
    ∃ v, (e.1, v) ∈ es := by
  induction es with
  | nil => cases h
  | cons e' es ih =>
    rcases mem_cons.1 h with rfl | h
    · exact ⟨e'.2, mem_cons_self⟩
    · exact (ih h).imp fun v hv => mem_cons_of_mem _ hv

theorem mem_dumpEntries {es : List (String × AnyValue)} {e : String × Json} (h : e ∈ dumpEntries es) :
    ∃ v, (e.1, v) ∈ es ∧ e.2 = v.dump := by
  induction es with
  | nil => cases h
  | cons e' es ih =>
    rcases mem_cons.1 h with rfl | h
    · exact ⟨e'.2, mem_cons_self, rfl⟩
    · exact (ih h).imp fun v hv => ⟨mem_cons_of_mem _ hv.1, hv.2⟩

mutual

theorem dump_ofJson (v : Json) : (ofJson v).dump = v := by
  cases v with
  | arr l => rw [ofJson, dump, dumpItems_ofItems]
  | obj es => rw [ofJson, dump, dumpEntries_ofEntries]
  | _ => rfl

theorem dumpItems_ofItems (l : List Json) : dumpItems (ofItems l) = l := by
  cases l with
  | nil => rfl
  | cons v l => rw [ofItems, dumpItems, dump_ofJson v, dumpItems_ofItems l]

theorem dumpEntries_ofEntries (es : List (String × Json)) : dumpEntries (ofEntries es) = es := by
  cases es with
  | nil => rfl
  | cons e es => rw [ofEntries, dumpEntries, dump_ofJson e.2, dumpEntries_ofEntries es]

end

/-- what was read is of types that JSON has -/
theorem entriesPlain_ofEntries (es : List (String × Json)) : entriesPlain (ofEntries es) = true := by
  rw [← entries_read, dumpEntries_ofEntries]

theorem length_ofEntries (es : List (String × Json)) : (ofEntries es).length = es.length := by
  induction es with
  | nil => rfl
  | cons e es ih => rw [ofEntries, length_cons, length_cons, ih]

theorem length_dumpEntries (es : List (String × AnyValue)) : (dumpEntries es).length = es.length := by
  induction es with
  | nil => rfl
  | cons e es ih => rw [dumpEntries, length_cons, length_cons, ih]

end AnyValue

namespace Extras

variable {names : List String}

/-- the entries that are none of the fields -/
def ofEntries (names : List String) (es : List (String × Json)) : Extras names where
  entries := AnyValue.ofEntries (es.filter fun e => e.1 ∉ names)
  undeclared e he := by
    obtain ⟨v, hv⟩ := AnyValue.mem_ofEntries he
    simpa using (mem_filter.1 hv).2

/-- `model_dump(mode="json", exclude_none=True)` of the fields and the other attributes -/
def dumpWith (declared : List (String × Json)) (x : Extras names) : List (String × Json) :=
  present (declared ++ AnyValue.dumpEntries x.entries)

/-- none of the attributes is `None`, and their values are of types that JSON has -/
def Kept (x : Extras names) : Prop :=
  AnyValue.entriesPlain x.entries = true ∧ ∀ e ∈ AnyValue.dumpEntries x.entries, e.2.isNull = false

variable {declared : List (String × Json)}

/-- a field is looked up among the fields -/
theorem lookup_dumpWith (h : (declared.map Prod.fst).Nodup) (x : Extras names) {key : String} (hkey : key ∈ names) :
    (dumpWith declared x).lookup key = (declared.lookup key).filter fun v => !v.isNull := by
  have hnone : (present (AnyValue.dumpEntries x.entries)).lookup key = none := by
    rw [lookup_eq_none_iff]
    intro e he
    obtain ⟨v, hv, -⟩ := AnyValue.mem_dumpEntries (mem_filter.1 he).1
    rw [bne_iff_ne]
    rintro rfl
    exact x.undeclared _ hv hkey
  have happend : dumpWith declared x = present declared ++ present (AnyValue.dumpEntries x.entries) :=
    filter_append _ _
  rw [happend, lookup_append, hnone, or_none, lookup_present h]

/-- a field that may be `None` is read as if it had not been left out -/
theorem optional_dumpWith {α : Type} (c : Codec α)
    (h : (declared.map Prod.fst).Nodup) (x : Extras names) {key : String} (hkey : key ∈ names) :
    c.optional.defaulted none (dumpWith declared x) key = c.optional.defaulted none declared key := by
  rw [Codec.defaulted, Codec.defaulted, lookup_dumpWith h x hkey]
  cases declared.lookup key with
  | none => rfl
  | some v => cases v <;> rfl

/-- attributes that were read survive when none of them is `None` -/
theorem kept_ofEntries_iff (names : List String) (es : List (String × Json)) :
    (ofEntries names es).Kept ↔ ∀ e ∈ es, e.1 ∉ names → e.2.isNull = false := by
  rw [Kept, ofEntries]
  rw [and_iff_right (AnyValue.entriesPlain_ofEntries _), AnyValue.dumpEntries_ofEntries]
  simp only [mem_filter, decide_eq_true_eq, and_imp]

/-- **Undeclared attributes** come back exactly when none of them is `None` or of another type. -/
theorem ofEntries_dumpWith_iff (h : ∀ e ∈ declared, e.1 ∈ names) (x : Extras names) :
    ofEntries names (dumpWith declared x) = x ↔ x.Kept := by
  have hfilter : (dumpWith declared x).filter (fun e => e.1 ∉ names) = present (AnyValue.dumpEntries x.entries) := by
    rw [dumpWith, present, filter_append, filter_append,
      filter_eq_nil_iff.2 fun e he => by simpa using h e (mem_filter.1 he).1, nil_append,
      filter_eq_self.2 fun e he => by
        obtain ⟨v, hv, -⟩ := AnyValue.mem_dumpEntries (mem_filter.1 he).1
        simpa using x.undeclared _ hv]
    rfl
  rw [Extras.ext_iff, ofEntries]
  dsimp only
  rw [hfilter, Kept]
  constructor
  · intro heq
    have hlength := congrArg List.length heq
    rw [AnyValue.length_ofEntries, ← AnyValue.length_dumpEntries x.entries, present] at hlength
    have hall := length_filter_eq_length_iff.1 hlength
    rw [present, filter_eq_self.2 hall, AnyValue.entries_read] at heq
    exact ⟨heq, fun e he => by simpa using hall e he⟩
  · rintro ⟨hplain, hall⟩
    rw [present, filter_eq_self.2 fun e he => by simpa using hall e he, AnyValue.entries_read]
    exact hplain

end Extras

def Codec.any : Codec AnyValue := ⟨AnyValue.dump, fun v => some (AnyValue.ofJson v)⟩

theorem Codec.any_reads : Codec.any.Reads AnyValue.read := fun _ => rfl

end Langbridge.Core
