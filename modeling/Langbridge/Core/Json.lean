/-
JSON-like Python values: what `model_dump` produces and `model_validate` reads, with `str(value)`, the truth value of
a value and the field lookups of a validation.
-/
import Langbridge.Core.Text

namespace Langbridge.Core

inductive Json where
  | null
  | bool (b : Bool)
  | int (i : ℤ)
  | float (text : String)
  | str (s : String)
  | arr (items : List Json)
  | obj (entries : List (String × Json))

namespace Json

/-- `bool(value)` -/
def truthy : Json → Bool
  | null => false
  | bool b => b
  | int i => i ≠ 0
  | float t => t ≠ "0.0" ∧ t ≠ "-0.0"
  | str s => s ≠ ""
  | arr l => !l.isEmpty
  | obj es => !es.isEmpty

/-- `value or other` -/
def orElse (v other : Json) : Json := if v.truthy then v else other

section Repr

variable [PyText]

mutual

/-- `repr(value)` -/
def repr : Json → String
  | null => "None"
  | bool true => "True"
  | bool false => "False"
  | int i => toString i
  | float t => t
  | str s => PyText.quote s
  | arr l => "[" ++ ", ".intercalate (reprList l) ++ "]"
  | obj es => "\x7b" ++ ", ".intercalate (reprEntries es) ++ "\x7d"

def reprList : List Json → List String
  | [] => []
  | v :: l => repr v :: reprList l

def reprEntries : List (String × Json) → List String
  | [] => []
  | (k, v) :: es => (PyText.quote k ++ ": " ++ repr v) :: reprEntries es

end

/-- `str(value)` -/
def text : Json → String
  | str s => s
  | v => repr v

end Repr

/-! ## Reading values -/

def asStr : Json → Option String
  | str s => some s
  | _ => none

def asInt : Json → Option ℤ
  | int i => some i
  | _ => none

/-- `list[...]`: every element is read -/
def asList {α : Type} (f : Json → Option α) : Json → Option (List α)
  | arr l => l.mapM f
  | _ => none

def isNull : Json → Bool
  | null => true
  | _ => false

/-- the value under a key; absent and `None` are both `none` -/
def field? (es : List (String × Json)) (k : String) : Option Json := (es.lookup k).filter fun v => !v.isNull

/-- a field with the default `none` -/
def optField {α : Type} (f : Json → Option α) (es : List (String × Json)) (k : String) : Option (Option α) :=
  match field? es k with
  | none => some none
  | some v => (f v).map some

/-- a field with a default value -/
def defField {α : Type} (f : Json → Option α) (dflt : α) (es : List (String × Json)) (k : String) : Option α :=
  match field? es k with
  | none => some dflt
  | some v => f v

/-- a field of a dump that leaves out `None` (`exclude_none=True`) -/
def entry {α : Type} (f : α → Json) (k : String) : Option α → List (String × Json)
  | none => []
  | some a => [(k, f a)]

/-- reading the dumps of a list reads each of them -/
theorem mapM_map_eq {α β γ : Type} (enc : α → β) (dec : β → Option γ) (g : α → γ) (l : List α)
    (h : ∀ a ∈ l, dec (enc a) = some (g a)) : (l.map enc).mapM dec = some (l.map g) := by
  rwa [mapM_some_iff, List.forall₂_map_left_iff, List.forall₂_map_right_iff, List.forall₂_same]

/-- a list that is read has every element read -/
theorem isSome_of_mapM {β γ : Type} (dec : β → Option γ) (l : List β) (r : List γ) (h : l.mapM dec = some r) :
    ∀ b ∈ l, ∃ c, dec b = some c := by
  intro b hb
  obtain ⟨c, -, hc⟩ := forall₂_exists_right (mapM_some_iff.1 h) b hb
  exact ⟨c, hc⟩

theorem mapM_isSome {β γ : Type} (dec : β → Option γ) (l : List β) (h : ∀ b ∈ l, ∃ c, dec b = some c) :
    ∃ r, l.mapM dec = some r := by
  induction l with
  | nil => exact ⟨[], rfl⟩
  | cons b l ih =>
    obtain ⟨c, hc⟩ := h b List.mem_cons_self
    obtain ⟨r, hr⟩ := ih fun b' hb' => h b' (List.mem_cons_of_mem b hb')
    exact ⟨c :: r, by rw [List.mapM_cons, hc, hr]; rfl⟩

/-- what is read of a list, seen through `u`, is the list seen through `v` when it is so for each element -/
theorem map_eq_of_mapM {β γ δ : Type} (dec : β → Option γ) (u : γ → δ) (v : β → δ) (l : List β) (r : List γ)
    (hd : ∀ b c, dec b = some c → u c = v b) (h : l.mapM dec = some r) : r.map u = l.map v :=
  map_eq_of_forall₂ hd (mapM_some_iff.1 h)

/-- dumping what was read gives the list back when it does so for each element -/
theorem map_of_mapM {β γ : Type} (dec : β → Option γ) (enc : γ → β) (l : List β) (r : List γ)
    (hd : ∀ b c, dec b = some c → enc c = b) (h : l.mapM dec = some r) : r.map enc = l := by
  rw [map_eq_of_mapM dec enc id l r hd h, List.map_id]

theorem asList_map {α β : Type} (enc : α → Json) (dec : Json → Option β) (g : α → β) (l : List α)
    (h : ∀ a, dec (enc a) = some (g a)) : asList dec (arr (l.map enc)) = some (l.map g) :=
  mapM_map_eq enc dec g l fun a _ => h a

@[simp] theorem asStr_str (s : String) : asStr (str s) = some s := rfl

@[simp] theorem asInt_int (i : ℤ) : asInt (int i) = some i := rfl

@[simp] theorem isNull_str (s : String) : isNull (str s) = false := rfl

@[simp] theorem isNull_int (i : ℤ) : isNull (int i) = false := rfl

@[simp] theorem isNull_arr (l : List Json) : isNull (arr l) = false := rfl

@[simp] theorem isNull_obj (es : List (String × Json)) : isNull (obj es) = false := rfl

/-- `list[Any]` keeps every list -/
@[simp] theorem asList_some (l : List Json) : asList some (arr l) = some l := by
  have h := asList_map id some id l fun _ => rfl
  rwa [List.map_id] at h

/-- a list of strings survives a dump and a read -/
@[simp] theorem asList_asStr (l : List String) : asList asStr (arr (l.map str)) = some l := by
  have h := asList_map str asStr id l fun _ => rfl
  rwa [List.map_id] at h

end Json

end Langbridge.Core
