/-
Parts of a regular expression that are matched one after another without a choice to take back: each takes what it can
of the text and leaves the rest to the next one.
-/
import Langbridge.Core.Text
import Langbridge.Core.Substitution

namespace Langbridge.Core

open List

variable {α β γ : Type}

/-- what a part takes of a text, and the rest -/
abbrev Scanner (α : Type) := StateT (List α) Option

/-- `[...]*` -/
def many (p : α → Bool) : Scanner α (List α) := fun cs => some (cs.takeWhile p, cs.dropWhile p)

/-- `[...]+` -/
def many1 [DecidableEq α] (p : α → Bool) : Scanner α (List α) := fun cs =>
  if cs.takeWhile p = [] then none else some (cs.takeWhile p, cs.dropWhile p)

def single [DecidableEq α] (c : α) : Scanner α Unit
  | d :: cs => if d = c then some ((), cs) else none
  | [] => none

/-- a word whose elements are compared by `fold` -/
def keyword [DecidableEq β] (fold : α → β) (w : List β) : Scanner α (List α) := fun cs =>
  if (cs.take w.length).map fold = w then some (cs.take w.length, cs.drop w.length) else none

/-- the matches of a scanner, where what stands before the text lets one begin -/
def Scanner.pattern (starts : Option α → Bool) (s : Scanner α β) : Pattern α β := fun before cs =>
  if starts before then (s cs).map fun found => (cs.length - found.2.length, found.1) else none

/-- the text does not begin with an element of the class -/
def Stops (p : α → Bool) (cs : List α) : Prop := ∀ c ∈ cs.head?, p c = false

variable {p : α → Bool} {cs : List α}

theorem stops_cons {c : α} (h : p c = false) : Stops p (c :: cs) := by
  rintro d hd
  cases hd
  exact h

theorem bind_eq_some {x : Scanner α β} {f : β → Scanner α γ} {r : γ × List α} :
    (x >>= f) cs = some r ↔ ∃ a rest, x cs = some (a, rest) ∧ f a rest = some r := by
  change ((x cs).bind fun p => f p.1 p.2) = some r ↔ _
  rw [Option.bind_eq_some_iff]
  exact ⟨fun ⟨p, hx, hf⟩ => ⟨p.1, p.2, hx, hf⟩, fun ⟨a, rest, hx, hf⟩ => ⟨(a, rest), hx, hf⟩⟩

theorem pure_eq_some {a : β} {r : β × List α} : (pure a : Scanner α β) cs = some r ↔ r = (a, cs) :=
  ⟨fun h => (Option.some.inj h).symm, fun h => h ▸ rfl⟩

theorem failure_ne_some {r : β × List α} : (failure : Scanner α β) cs ≠ some r :=
  fun h => nomatch h

theorem stops_dropWhile (p : α → Bool) (cs : List α) : Stops p (cs.dropWhile p) := head_dropWhile p cs

variable {w : List α}

theorem takeWhile_eq (hw : ∀ c ∈ w, p c = true) (hcs : Stops p cs) :
    (w ++ cs).takeWhile p = w ∧ (w ++ cs).dropWhile p = cs := by
  rw [takeWhile_append_of_pos hw, dropWhile_append_of_pos hw]
  cases cs with
  | nil => exact ⟨append_nil w, rfl⟩
  | cons c cs =>
    have hc : ¬p c = true := by
      rw [hcs c rfl]
      exact Bool.false_ne_true
    rw [takeWhile_cons_of_neg hc, dropWhile_cons_of_neg hc]
    exact ⟨append_nil w, rfl⟩

variable {rest : List α}

theorem many_eq_some : many p cs = some (w, rest) ↔ cs = w ++ rest ∧ (∀ c ∈ w, p c = true) ∧ Stops p rest := by
  constructor
  · intro h
    cases h
    exact ⟨takeWhile_append_dropWhile.symm, fun c hc => all_eq_true.1 all_takeWhile c hc,
      stops_dropWhile p cs⟩
  · rintro ⟨rfl, hw, hrest⟩
    rw [many, (takeWhile_eq hw hrest).1, (takeWhile_eq hw hrest).2]

theorem many1_eq_some [DecidableEq α] :
    many1 p cs = some (w, rest) ↔ w ≠ [] ∧ cs = w ++ rest ∧ (∀ c ∈ w, p c = true) ∧ Stops p rest := by
  rw [← many_eq_some, many1, many, Option.some.injEq, Prod.mk.injEq]
  split_ifs with hnil
  · refine iff_of_false (fun h => nomatch h) ?_
    rintro ⟨hw, htake, -⟩
    exact hw (htake ▸ hnil)
  · rw [Option.some.injEq, Prod.mk.injEq]
    exact ⟨fun h => ⟨h.1 ▸ hnil, h⟩, fun h => h.2⟩

theorem single_eq_some [DecidableEq α] {c : α} {a : Unit} : single c cs = some (a, rest) ↔ cs = c :: rest := by
  cases cs with
  | nil => exact iff_of_false (fun h => nomatch h) fun h => nomatch h
  | cons d cs =>
    rw [single]
    split_ifs with hd
    · rw [Option.some.injEq, Prod.mk.injEq, hd, List.cons.injEq]
      exact ⟨fun h => ⟨rfl, h.2⟩, fun h => ⟨rfl, h.2⟩⟩
    · exact iff_of_false (fun h => nomatch h) fun h => hd (List.cons.inj h).1

theorem keyword_eq_some [DecidableEq β] {fold : α → β} {w : List β} {cs k rest : List α} :
    keyword fold w cs = some (k, rest) ↔ cs = k ++ rest ∧ k.map fold = w := by
  rw [keyword]
  constructor
  · intro h
    split_ifs at h with hfold
    cases h
    exact ⟨(take_append_drop _ _).symm, hfold⟩
  · rintro ⟨rfl, rfl⟩
    rw [length_map, take_left, drop_left, if_pos rfl]

/-- the match of a scanner that begins a text -/
theorem pattern_eq_some {starts : Option α → Bool} {s : Scanner α β} {before : Option α} {n : ℕ} {d : β} :
    s.pattern starts before cs = some (n, d) ↔
      starts before = true ∧ ∃ rest, s cs = some (d, rest) ∧ n = cs.length - rest.length := by
  rw [Scanner.pattern]
  split_ifs with hstart
  · rw [Option.map_eq_some_iff, and_iff_right hstart]
    constructor
    · rintro ⟨⟨d', rest⟩, hs, hd⟩
      cases hd
      exact ⟨rest, hs, rfl⟩
    · rintro ⟨rest, hs, rfl⟩
      exact ⟨(d, rest), hs, rfl⟩
  · exact iff_of_false (fun h => nomatch h) fun h => hstart h.1

end Langbridge.Core
