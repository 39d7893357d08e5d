/-
The parameters of a connection's startup message (`runtime/hosting/odbc._parse_startup_parameters`): names and values
that each end in a zero byte, and one more at the end. Empty parts are dropped before names and values are paired.
-/
import Langbridge.Core.Dict
import Langbridge.Core.Frames
import Langbridge.Core.Json

namespace Langbridge.Runtime.OdbcStartup

open Core Core.Percent List

structure StartupParameter where
  name : String
  value : String
  named : name ≠ ""
  name_nul : Char.ofNat 0 ∉ name.toList
  value_nul : Char.ofNat 0 ∉ value.toList

def StartupParameter.pair (p : StartupParameter) : String × String := (p.name, p.value)

def cstring (value : String) : List UInt8 := encode value.toList ++ [0]

def startupPayload (ps : List StartupParameter) : List UInt8 :=
  ps.flatMap (fun p => cstring p.name ++ cstring p.value) ++ [0]

/-- `part.decode("utf-8")`; `none` raises -/
def decodeText (part : List UInt8) : Option String :=
  (ByteArray.utf8Decode? part.toByteArray).map fun cs => String.ofList cs.toList

def pairUp : List String → List (String × String)
  | name :: value :: items => (name, value) :: pairUp items
  | _ => []

def parseStartupParameters (payload : List UInt8) : Option (Dict String String) :=
  (((payload.splitOn 0).filter (· ≠ [])).mapM decodeText).map fun items => Dict.ofList (pairUp items)

theorem decodeText_encode (s : String) : decodeText (encode s.toList) = some s := by
  have hbytes : (encode s.toList).toByteArray = s.toList.utf8Encode := rfl
  rw [decodeText, hbytes, utf8Decode?_utf8Encode]
  simp

theorem encode_eq_nil_iff (s : String) : encode s.toList = [] ↔ s = "" := by
  constructor
  · intro h
    have hempty : s.toList = [] := Frames.encode_injective h
    exact String.toList_eq_nil_iff.1 hempty
  · rintro rfl
    rfl

theorem splitOn_cstring {s : String} (h : Char.ofNat 0 ∉ s.toList) (rest : List UInt8) :
    (cstring s ++ rest).splitOn 0 = encode s.toList :: rest.splitOn 0 := by
  have hzero : (0 : UInt8) ∉ encode s.toList := fun hmem => h ((Frames.zero_mem_encode_iff _).1 hmem)
  rw [cstring, append_assoc, singleton_append, splitOn_append_cons_of_beq _ _ (beq_self_eq_true _),
    splitOn_eq_singleton hzero, singleton_append]

/-- the parts that are not dropped -/
def items (ps : List StartupParameter) : List String := (ps.flatMap fun p => [p.name, p.value]).filter (· ≠ "")

theorem parts_payload (ps : List StartupParameter) :
    ((startupPayload ps).splitOn 0).filter (· ≠ []) = (items ps).map fun s => encode s.toList := by
  induction ps with
  | nil => rfl
  | cons p ps ih =>
    rw [startupPayload, flatMap_cons, append_assoc, append_assoc, splitOn_cstring p.name_nul,
      splitOn_cstring p.value_nul, ← startupPayload]
    simp only [items, flatMap_cons, cons_append, nil_append, filter_cons, ← encode_eq_nil_iff,
      decide_not] at ih ⊢
    split_ifs <;> simp [ih]

theorem parse_startupPayload (ps : List StartupParameter) :
    parseStartupParameters (startupPayload ps) = some (Dict.ofList (pairUp (items ps))) := by
  rw [parseStartupParameters, parts_payload, Json.mapM_map_eq (fun s : String => encode s.toList) decodeText id _
    fun s _ => decodeText_encode s, List.map_id, Option.map_some]

theorem length_pairUp (l : List String) : 2 * (pairUp l).length ≤ l.length := by
  fun_induction pairUp l with
  | case1 name value items ih => simp only [length_cons]; omega
  | case2 l h => simp

theorem length_ofList {α β : Type} [DecidableEq α] (l : List (α × β)) : (Dict.ofList l).entries.length ≤ l.length := by
  have hsub : (Dict.ofList l).keys ⊆ l.map Prod.fst := fun a ha => (Dict.mem_keys_ofList l a).1 ha
  simpa [Dict.keys] using ((Dict.ofList l).keys_nodup.subperm hsub).length_le

theorem items_of_values {ps : List StartupParameter} (h : ∀ p ∈ ps, p.value ≠ "") :
    pairUp (items ps) = ps.map StartupParameter.pair := by
  induction ps with
  | nil => rfl
  | cons p ps ih =>
    have ih := ih fun q hq => h q (mem_cons_of_mem p hq)
    rw [items] at ih ⊢
    simp [p.named, h p mem_cons_self, pairUp, StartupParameter.pair] at ih ⊢
    exact ih

/-- no part is dropped where each name has a value -/
theorem values_of_length {ps : List StartupParameter} (h : 2 * ps.length ≤ (items ps).length) :
    ∀ p ∈ ps, p.value ≠ "" := by
  have hlength : (ps.flatMap fun p => [p.name, p.value]).length = 2 * ps.length := by
    simp [length_flatMap, Nat.mul_comm]
  have hall := length_filter_eq_length_iff.1
    (Nat.le_antisymm (length_filter_le _ _) (hlength.le.trans h))
  intro p hp
  simpa using hall p.value (mem_flatMap.2 ⟨p, hp, by simp⟩)

/-- **Startup parameters.** -/
theorem parse_startup_iff (ps : List StartupParameter) :
    (parseStartupParameters (startupPayload ps)).map Dict.entries = some (ps.map StartupParameter.pair) ↔
      (∀ p ∈ ps, p.value ≠ "") ∧ (ps.map StartupParameter.name).Nodup := by
  rw [parse_startupPayload, Option.map_some, Option.some.injEq]
  constructor
  · intro h
    refine ⟨values_of_length ?_, ?_⟩
    · have hlength := congrArg List.length h
      rw [length_map] at hlength
      have hpairs := length_pairUp (items ps)
      have hdict := length_ofList (pairUp (items ps))
      omega
    · have hnodup := (Dict.ofList (pairUp (items ps))).nodup
      rwa [h, List.map_map] at hnodup
  · rintro ⟨hvalues, hnodup⟩
    rw [items_of_values hvalues]
    have hkeys : ((ps.map StartupParameter.pair).map Prod.fst).Nodup := by rwa [List.map_map]
    exact congrArg Dict.entries (Dict.ofList_entries ⟨ps.map StartupParameter.pair, hkeys⟩)

/-! ## An empty value -/

def emptyOptions : List StartupParameter :=
  [⟨"user", "ada", by decide, by decide, by decide⟩, ⟨"options", "", by decide, by decide, by decide⟩,
    ⟨"database", "shop", by decide, by decide, by decide⟩]

/-- **The database is lost** behind an empty value. -/
theorem empty_options : (parseStartupParameters (startupPayload emptyOptions)).map Dict.entries =
      some [("user", "ada"), ("options", "database")] ∧
    (parseStartupParameters (startupPayload emptyOptions)).map Dict.entries ≠
      some (emptyOptions.map StartupParameter.pair) := by
  have hrun : (parseStartupParameters (startupPayload emptyOptions)).map Dict.entries =
      some [("user", "ada"), ("options", "database")] := by
    rw [parse_startupPayload]
    decide
  exact ⟨hrun, fun h => absurd (hrun.symm.trans h) (by decide)⟩

end Langbridge.Runtime.OdbcStartup
