/-
Dictionaries in layers: one laid under another gives the entries whose keys are free, and the part of one at some keys.
Dictionaries of lists: what is grouped under a key, and a value made of each group.
-/
import Langbridge.Core.Codec

namespace Langbridge.Core.Dict

open List Option

variable {α β γ : Type} [DecidableEq α]

/-- `d.setdefault(k, v)` -/
def setDefault (d : Dict α β) (k : α) (v : β) : Dict α β := if d.has k then d else d.set k v

/-- the entries of another dictionary that pass a test, each where its key is free -/
def setDefaults (keep : β → Bool) (d defaults : Dict α β) : Dict α β :=
  defaults.entries.foldl (fun d e => if keep e.2 then d.setDefault e.1 e.2 else d) d

/-- the entries at some keys -/
def restrict (p : α → Bool) (d : Dict α β) : Dict α β :=
  ⟨d.entries.filter fun e => p e.1, d.nodup.sublist (filter_sublist.map Prod.fst)⟩

theorem get?_setDefault (d : Dict α β) (k : α) (v : β) (a : α) :
    (d.setDefault k v).get? a = (d.get? a).or (if a = k then some v else none) := by
  unfold setDefault
  by_cases hk : d.has k = true
  · rw [if_pos hk]
    by_cases ha : a = k
    · obtain ⟨w, hw⟩ := (mem_keys_iff _ _).1 ((has_iff _ _).1 hk)
      rw [ha, hw]
      rfl
    · rw [if_neg ha, or_none]
  · rw [if_neg hk, get?_set]
    by_cases ha : a = k
    · have hnone : d.get? a = none := by
        rw [has, Bool.not_eq_true, isSome_eq_false_iff, isNone_iff_eq_none] at hk
        rw [ha, hk]
      rw [if_pos ha, if_pos ha, hnone, none_or]
    · rw [if_neg ha, if_neg ha, or_none]

/-- **Defaults** count where the upper dictionary has nothing. -/
theorem get?_setDefaults (keep : β → Bool) (d defaults : Dict α β) (k : α) :
    (setDefaults keep d defaults).get? k = (d.get? k).or ((defaults.get? k).filter keep) := by
  have h : ∀ (l : List (α × β)) (d : Dict α β), (l.map Prod.fst).Nodup →
      (l.foldl (fun d e => if keep e.2 then d.setDefault e.1 e.2 else d) d).get? k =
        (d.get? k).or ((l.lookup k).filter keep) := by
    intro l
    induction l with
    | nil =>
      intro d _
      rw [lookup_nil, filter_none, or_none]
      rfl
    | cons e l ih =>
      intro d hnodup
      obtain ⟨a, v⟩ := e
      rw [map_cons, nodup_cons] at hnodup
      have hfresh : ∀ q ∈ l, q.1 ≠ a := fun q hq heq =>
        hnodup.1 (mem_map.2 ⟨q, hq, heq⟩)
      rw [foldl_cons, ih _ hnodup.2]
      by_cases ha : k = a
      · have hnone : l.lookup k = none := by
          rw [lookup_eq_none_iff]
          intro q hq
          rw [ha, bne_iff_ne]
          exact (hfresh q hq).symm
        rw [hnone, ← ha, lookup_cons_self, filter_none, or_none]
        by_cases hv : keep v = true
        · rw [if_pos hv, get?_setDefault, if_pos rfl, filter_some_pos hv]
        · rw [if_neg hv, filter_some_neg (Bool.eq_false_of_not_eq_true hv), or_none]
      · rw [lookup_cons_ne ha]
        by_cases hv : keep v = true
        · rw [if_pos hv, get?_setDefault, if_neg ha, or_none]
        · rw [if_neg hv]
  exact h defaults.entries d defaults.nodup

theorem get?_restrict (p : α → Bool) (d : Dict α β) (k : α) :
    (d.restrict p).get? k = if p k then d.get? k else none := by
  refine Option.ext fun v => ?_
  rw [get?_eq_some_iff, restrict, mem_filter, ← get?_eq_some_iff]
  by_cases hk : p k = true
  · rw [if_pos hk]
    exact and_iff_left hk
  · rw [if_neg hk]
    exact iff_of_false (fun h => hk h.2) fun h => (by cases h)

theorem get?_mapValues (f : β → γ) (d : Dict α β) (k : α) : (d.mapValues f).get? k = (d.get? k).map f := by
  have h : ∀ l : List (α × β), (l.map fun e => (e.1, f e.2)).lookup k = (l.lookup k).map f := by
    intro l
    induction l with
    | nil => rfl
    | cons e l ih =>
      obtain ⟨a, v⟩ := e
      rw [map_cons]
      by_cases ha : k = a
      · rw [ha, lookup_cons_self, lookup_cons_self]
        rfl
      · rw [lookup_cons_ne ha, lookup_cons_ne ha, ih]
  exact h d.entries

/-- a dictionary without entries gives nothing -/
theorem entries_eq_nil_iff (d : Dict α β) : d.entries = [] ↔ ∀ k, d.get? k = none := by
  constructor
  · intro h k
    rw [get?, h]
    rfl
  · intro h
    by_contra hne
    obtain ⟨⟨k, v⟩, he⟩ := exists_mem_of_ne_nil _ hne
    have hget := (get?_eq_some_iff d k v).2 he
    rw [h k] at hget
    cases hget

/-! ## Groups -/

/-- `groups.setdefault(key(b), []).append(b)` for each element -/
def groupBy (key : β → α) (l : List β) : Dict α (List β) :=
  l.foldl (fun groups b => groups.set (key b) ((groups.get? (key b)).getD [] ++ [b])) empty

/-- `out[k] = f(k, v)` for each entry, which may raise -/
def traverse {ε : Type} (f : α → β → Except ε γ) (d : Dict α β) : Except ε (Dict α γ) :=
  d.entries.foldlM (fun out e => do return out.set e.1 (← f e.1 e.2)) empty

/-- **Groups.** Under a key stand the elements with this key, in their order. -/
theorem get?_groupBy (key : β → α) (l : List β) (k : α) :
    (groupBy key l).get? k =
      if l.filter (fun b => key b = k) = [] then none else some (l.filter fun b => key b = k) := by
  induction l using List.reverseRecOn with
  | nil => rfl
  | append_singleton l b ih =>
    rw [groupBy, foldl_append, foldl_cons, foldl_nil, get?_set, filter_append]
    change (if k = key b then some (((groupBy key l).get? (key b)).getD [] ++ [b]) else (groupBy key l).get? k) = _
    by_cases hk : k = key b
    · have hlast : [b].filter (fun b => decide (key b = k)) = [b] :=
        filter_cons_of_pos (decide_eq_true hk.symm)
      rw [if_pos hk, ← hk, ih, hlast, if_neg (append_ne_nil_of_right_ne_nil _ (cons_ne_nil _ _))]
      split_ifs with hnil
      · rw [hnil]
        rfl
      · rfl
    · have hlast : [b].filter (fun b => decide (key b = k)) = [] :=
        filter_cons_of_neg (by rw [decide_eq_true_eq]; exact Ne.symm hk)
      rw [if_neg hk, ih, hlast, append_nil]

/-- **A value for each key.** Where none raises, each key stands for the value made of what it stood for. -/
theorem get?_traverse {ε : Type} (f : α → β → Except ε γ) (d : Dict α β) (out : Dict α γ)
    (h : d.traverse f = .ok out) (k : α) (v : β) (hk : d.get? k = some v) :
    ∃ w, f k v = .ok w ∧ out.get? k = some w := by
  have hall : ∀ (l : List (α × β)) (start out : Dict α γ), (l.map Prod.fst).Nodup →
      l.foldlM (fun out e => do return out.set e.1 (← f e.1 e.2)) start = .ok out →
      (∀ e ∈ l, ∃ w, f e.1 e.2 = .ok w ∧ out.get? e.1 = some w) ∧
        ∀ a, a ∉ l.map Prod.fst → out.get? a = start.get? a := by
    intro l
    induction l with
    | nil =>
      intro start out _ hout
      cases hout
      exact ⟨fun e he => (by cases he), fun _ _ => rfl⟩
    | cons e l ih =>
      intro start out hnodup hout
      rw [map_cons, nodup_cons] at hnodup
      rw [foldlM_cons] at hout
      cases hw : f e.1 e.2 with
      | error m =>
        rw [hw] at hout
        cases hout
      | ok w =>
        rw [hw] at hout
        obtain ⟨hrest, hother⟩ := ih (start.set e.1 w) out hnodup.2 hout
        refine ⟨fun e' he' => ?_, fun a ha => ?_⟩
        · rcases mem_cons.1 he' with rfl | he'
          · exact ⟨w, hw, (hother _ hnodup.1).trans (get?_set_self _ _ _)⟩
          · exact hrest e' he'
        · rw [map_cons, mem_cons, not_or] at ha
          rw [hother a ha.2, get?_set_of_ne _ _ ha.1]
  exact (hall d.entries empty out d.nodup h).1 (k, v) ((get?_eq_some_iff d k v).1 hk)

end Langbridge.Core.Dict
