/-
Insertion-ordered dictionaries (Python's `dict`): a list of entries whose keys are distinct, the distinctness being a
field, so that no later proof has to carry it. `set` overwrites in place and appends a new key at the end; `ofList`
builds a dictionary from pairs, a later pair winning.
-/
import Mathlib.Tactic

namespace Langbridge.Core

open List

structure Dict (α β : Type) where
  entries : List (α × β)
  nodup : (entries.map Prod.fst).Nodup
deriving DecidableEq

/-- a condition on a value that may be missing -/
instance decidableElim {α : Type} {p : α → Prop} [DecidablePred p] : ∀ o : Option α, Decidable (o.elim True p)
  | none => .isTrue trivial
  | some a => inferInstanceAs (Decidable (p a))

namespace Dict

variable {α β : Type}

@[ext] theorem ext {d e : Dict α β} (h : d.entries = e.entries) : d = e := by
  cases d; cases e; simpa using h

variable [DecidableEq α]

def empty : Dict α β := ⟨[], nodup_nil⟩

instance : Inhabited (Dict α β) := ⟨empty⟩

def keys (d : Dict α β) : List α := d.entries.map Prod.fst

def values (d : Dict α β) : List β := d.entries.map Prod.snd

omit [DecidableEq α] in
theorem keys_nodup (d : Dict α β) : d.keys.Nodup := d.nodup

def get? (d : Dict α β) (k : α) : Option β := d.entries.lookup k

def has (d : Dict α β) (k : α) : Bool := (d.get? k).isSome

/-- overwrite the entry of `k` in place, or append one -/
def setEntry (k : α) (v : β) : List (α × β) → List (α × β)
  | [] => [(k, v)]
  | (k', v') :: l => if k' = k then (k, v) :: l else (k', v') :: setEntry k v l

theorem fst_mem_setEntry (k : α) (v : β) (l : List (α × β)) (a : α) :
    a ∈ (setEntry k v l).map Prod.fst ↔ a ∈ l.map Prod.fst ∨ a = k := by
  induction l with
  | nil => simp [setEntry]
  | cons e l ih =>
    obtain ⟨k', v'⟩ := e
    by_cases h : k' = k
    · subst h
      simp only [setEntry, if_true, map_cons, mem_cons]
      tauto
    · simp only [setEntry, if_neg h, map_cons, mem_cons, ih]
      tauto

theorem nodup_setEntry (k : α) (v : β) (l : List (α × β)) (h : (l.map Prod.fst).Nodup) :
    ((setEntry k v l).map Prod.fst).Nodup := by
  induction l with
  | nil => simp [setEntry]
  | cons e l ih =>
    obtain ⟨k', v'⟩ := e
    simp only [map_cons, nodup_cons] at h
    by_cases hk : k' = k
    · subst hk
      simpa only [setEntry, if_true, map_cons, nodup_cons] using h
    · simp only [setEntry, if_neg hk, map_cons, nodup_cons, fst_mem_setEntry]
      refine ⟨?_, ih h.2⟩
      rintro (hm | hm)
      · exact h.1 hm
      · exact hk hm

def set (d : Dict α β) (k : α) (v : β) : Dict α β := ⟨setEntry k v d.entries, nodup_setEntry k v _ d.nodup⟩

/-- `d.pop(k, None)` -/
def erase (d : Dict α β) (k : α) : Dict α β :=
  ⟨d.entries.filter fun e => e.1 ≠ k, d.nodup.sublist (filter_sublist.map Prod.fst)⟩

/-- `dict(pairs)` -/
def ofList (l : List (α × β)) : Dict α β := l.foldl (fun d e => d.set e.1 e.2) empty

/-- `d.update(e)`, or `{**d, **e}` -/
def update (d e : Dict α β) : Dict α β := e.entries.foldl (fun d e => d.set e.1 e.2) d

/-- a value for each of some distinct keys -/
def tabulate (keys : List α) (h : keys.Nodup) (f : α → β) : Dict α β :=
  ⟨keys.map fun k => (k, f k), by simpa [List.map_map, Function.comp_def] using h⟩

omit [DecidableEq α] in
@[simp] theorem keys_tabulate (l : List α) (h : l.Nodup) (f : α → β) : (tabulate l h f).keys = l := by
  simp [keys, tabulate, List.map_map, Function.comp_def]

omit [DecidableEq α] in
theorem tabulate_congr {l : List α} (h : l.Nodup) (f g : α → β) (hfg : ∀ k ∈ l, f k = g k) :
    tabulate l h f = tabulate l h g :=
  ext (map_congr_left fun k hk => by rw [hfg k hk])

@[simp] theorem get?_empty (k : α) : (empty : Dict α β).get? k = none := rfl

theorem lookup_cons_ne {a k : α} (h : a ≠ k) (v : β) (l : List (α × β)) : ((k, v) :: l).lookup a = l.lookup a := by
  have hb : (a == k) = false := beq_eq_false_iff_ne.2 h
  simp only [lookup_cons, hb]

theorem lookup_setEntry (k : α) (v : β) (l : List (α × β)) (a : α) :
    (setEntry k v l).lookup a = if a = k then some v else l.lookup a := by
  induction l with
  | nil =>
    by_cases h : a = k
    · simp [setEntry, h]
    · simp [setEntry, lookup_cons_ne h, h]
  | cons e l ih =>
    obtain ⟨k', v'⟩ := e
    by_cases hk : k' = k
    · subst hk
      by_cases ha : a = k'
      · simp [setEntry, ha]
      · simp [setEntry, lookup_cons_ne ha, ha]
    · simp only [setEntry, if_neg hk]
      by_cases ha : a = k'
      · subst ha
        simp [hk]
      · rw [lookup_cons_ne ha, lookup_cons_ne ha, ih]

/-- every key with a value of its own -/
theorem lookup_map_key {γ : Type} (f : α → γ) (l : List (α × β)) (a : α) :
    (l.map fun e => (e.1, f e.1)).lookup a = (l.lookup a).map fun _ => f a := by
  induction l with
  | nil => rfl
  | cons e l ih =>
    obtain ⟨k, v⟩ := e
    by_cases h : a = k
    · simp [h]
    · rw [map_cons, lookup_cons_ne h, ih, lookup_cons_ne h]

theorem get?_tabulate (l : List α) (h : l.Nodup) (f : α → β) (k : α) :
    (tabulate l h f).get? k = if k ∈ l then some (f k) else none := by
  have hlookup : ∀ l : List α, (l.map fun k => (k, f k)).lookup k = if k ∈ l then some (f k) else none := by
    intro l
    induction l with
    | nil => rfl
    | cons a l ih =>
      by_cases hk : k = a
      · rw [hk, map_cons, lookup_cons_self, if_pos mem_cons_self]
      · rw [map_cons, lookup_cons_ne hk, ih]
        simp only [mem_cons, hk, false_or]
  exact hlookup l

theorem get?_set (d : Dict α β) (k : α) (v : β) (a : α) :
    (d.set k v).get? a = if a = k then some v else d.get? a :=
  lookup_setEntry k v d.entries a

@[simp] theorem get?_set_self (d : Dict α β) (k : α) (v : β) : (d.set k v).get? k = some v := by
  simp [get?_set]

theorem get?_set_of_ne (d : Dict α β) {k a : α} (v : β) (h : a ≠ k) : (d.set k v).get? a = d.get? a := by
  simp [get?_set, h]

theorem get?_erase (d : Dict α β) (k a : α) : (d.erase k).get? a = if a = k then none else d.get? a := by
  have hlookup : ∀ l : List (α × β), (l.filter fun e => e.1 ≠ k).lookup a = if a = k then none else l.lookup a := by
    intro l
    induction l with
    | nil => simp
    | cons e l ih =>
      obtain ⟨x, v⟩ := e
      by_cases hx : x = k
      · rw [filter_cons_of_neg (by simp [hx]), ih]
        by_cases ha : a = k
        · rw [if_pos ha, if_pos ha]
        · rw [if_neg ha, if_neg ha, lookup_cons_ne (hx ▸ ha)]
      · rw [filter_cons_of_pos (by simp [hx])]
        by_cases ha : a = x
        · rw [ha, if_neg hx, lookup_cons_self, lookup_cons_self]
        · rw [lookup_cons_ne ha, lookup_cons_ne ha, ih]
  exact hlookup d.entries

theorem lookup_eq_some_iff (l : List (α × β)) (h : (l.map Prod.fst).Nodup) (k : α) (v : β) :
    l.lookup k = some v ↔ (k, v) ∈ l := by
  induction l with
  | nil => simp
  | cons e l ih =>
    obtain ⟨k', v'⟩ := e
    simp only [map_cons, nodup_cons] at h
    by_cases hk : k = k'
    · subst hk
      simp only [lookup_cons_self, Option.some.injEq, mem_cons, Prod.mk.injEq, true_and]
      refine ⟨fun hv => .inl hv.symm, ?_⟩
      rintro (hv | hm)
      · exact hv.symm
      · exact absurd (mem_map_of_mem (f := Prod.fst) hm) h.1
    · rw [lookup_cons_ne hk, ih h.2]
      simp [hk]

/-- a dictionary's entries are the graph of `get?` -/
theorem get?_eq_some_iff (d : Dict α β) (k : α) (v : β) : d.get? k = some v ↔ (k, v) ∈ d.entries :=
  lookup_eq_some_iff d.entries d.nodup k v

/-- a dictionary is the table of its values -/
theorem tabulate_get (d : Dict α β) (dflt : β) : tabulate d.keys d.keys_nodup (fun k => (d.get? k).getD dflt) = d := by
  refine ext ?_
  have hentry : ∀ e ∈ d.entries, (e.1, (d.get? e.1).getD dflt) = e := by
    intro e he
    rw [get?, (lookup_eq_some_iff d.entries d.nodup e.1 e.2).2 he]
    rfl
  simp only [tabulate, keys, List.map_map]
  conv_rhs => rw [← List.map_id d.entries]
  exact map_congr_left hentry

theorem mem_keys_iff (d : Dict α β) (k : α) : k ∈ d.keys ↔ ∃ v, d.get? k = some v := by
  simp [keys, get?_eq_some_iff]

@[simp] theorem has_iff (d : Dict α β) (k : α) : d.has k = true ↔ k ∈ d.keys := by
  rw [mem_keys_iff, has, Option.isSome_iff_exists]

theorem mem_keys_set (d : Dict α β) (k : α) (v : β) (a : α) : a ∈ (d.set k v).keys ↔ a ∈ d.keys ∨ a = k :=
  fst_mem_setEntry k v d.entries a

/-- a key that is there stays at its place, another one is put at the end -/
theorem keys_set (d : Dict α β) (k : α) (v : β) :
    (d.set k v).keys = if k ∈ d.keys then d.keys else d.keys ++ [k] := by
  have hentries : ∀ l : List (α × β),
      (setEntry k v l).map Prod.fst = if k ∈ l.map Prod.fst then l.map Prod.fst else l.map Prod.fst ++ [k] := by
    intro l
    induction l with
    | nil => rfl
    | cons e l ih =>
      obtain ⟨k', v'⟩ := e
      rw [setEntry]
      by_cases hk : k' = k
      · rw [if_pos hk, map_cons, map_cons, if_pos (hk ▸ mem_cons_self), hk]
      · rw [if_neg hk, map_cons, ih, map_cons]
        have hmem : k ∈ k' :: l.map Prod.fst ↔ k ∈ l.map Prod.fst :=
          mem_cons.trans (or_iff_right fun h => hk h.symm)
        simp only [hmem]
        split_ifs
        · rfl
        · rfl
  exact hentries d.entries

theorem mem_keys_ofList (l : List (α × β)) (a : α) : a ∈ (ofList l).keys ↔ a ∈ l.map Prod.fst := by
  have h : ∀ (l : List (α × β)) (d : Dict α β),
      a ∈ (l.foldl (fun d e => d.set e.1 e.2) d).keys ↔ a ∈ d.keys ∨ a ∈ l.map Prod.fst := by
    intro l
    induction l with
    | nil => simp
    | cons e l ih =>
      intro d
      rw [foldl_cons, ih, mem_keys_set, map_cons, mem_cons, or_assoc]
  rw [ofList, h]
  simp [keys, empty]

/-- a new key is appended -/
theorem setEntry_of_not_mem (k : α) (v : β) (l : List (α × β)) (h : k ∉ l.map Prod.fst) :
    setEntry k v l = l ++ [(k, v)] := by
  induction l with
  | nil => rfl
  | cons e l ih =>
    rw [map_cons, mem_cons, not_or] at h
    rw [setEntry, if_neg (Ne.symm h.1), ih h.2, cons_append]

/-- a dictionary is the one of its entries -/
@[simp] theorem ofList_entries (d : Dict α β) : ofList d.entries = d := by
  have h : ∀ (l : List (α × β)) (e : Dict α β), ((e.entries ++ l).map Prod.fst).Nodup →
      (l.foldl (fun d p => d.set p.1 p.2) e).entries = e.entries ++ l := by
    intro l
    induction l with
    | nil => exact fun e _ => (append_nil e.entries).symm
    | cons p l ih =>
      intro e hnodup
      have hnew : p.1 ∉ e.entries.map Prod.fst := by
        rw [map_append, map_cons, nodup_append] at hnodup
        exact fun hmem => hnodup.2.2 p.1 hmem p.1 mem_cons_self rfl
      have hset : (e.set p.1 p.2).entries = e.entries ++ [p] := setEntry_of_not_mem p.1 p.2 e.entries hnew
      rw [foldl_cons, ih, hset, append_assoc]
      · rfl
      · rw [hset, append_assoc]
        exact hnodup
  exact ext (h d.entries empty d.nodup)

/-- the entries of the other dictionary win -/
theorem get?_update (d e : Dict α β) (k : α) : (d.update e).get? k = (e.get? k).or (d.get? k) := by
  have h : ∀ (l : List (α × β)) (d : Dict α β), (l.map Prod.fst).Nodup →
      (l.foldl (fun d e => d.set e.1 e.2) d).get? k = (l.lookup k).or (d.get? k) := by
    intro l
    induction l with
    | nil => exact fun d _ => rfl
    | cons p l ih =>
      intro d hnodup
      rw [map_cons, nodup_cons] at hnodup
      rw [foldl_cons, ih _ hnodup.2, get?_set]
      by_cases hk : k = p.1
      · have hnone : l.lookup k = none := by
          rw [lookup_eq_none_iff]
          intro q hq
          rw [hk, bne_iff_ne]
          rintro heq
          exact hnodup.1 (heq ▸ mem_map_of_mem hq)
        obtain ⟨a, b⟩ := p
        obtain rfl : k = a := hk
        rw [hnone, if_pos rfl, lookup_cons_self]
        rfl
      · rw [if_neg hk, lookup_cons_ne hk]
  exact h e.entries d e.nodup

/-- of the entries with one key the last wins -/
theorem get?_foldl_set_iff (l : List (α × β)) (d : Dict α β) (k : α) (v : β) :
    (l.foldl (fun d e => d.set e.1 e.2) d).get? k = some v ↔
      (∃ before after, l = before ++ (k, v) :: after ∧ k ∉ after.map Prod.fst) ∨
        (k ∉ l.map Prod.fst ∧ d.get? k = some v) := by
  induction l generalizing d with
  | nil => simp
  | cons e l ih =>
    rw [foldl_cons, ih, get?_set, map_cons, mem_cons, not_or]
    constructor
    · rintro (⟨before, after, rfl, hlast⟩ | ⟨hnone, hget⟩)
      · exact .inl ⟨e :: before, after, rfl, hlast⟩
      · split_ifs at hget with hkey
        · cases hget
          exact .inl ⟨[], l, by rw [hkey]; rfl, hnone⟩
        · exact .inr ⟨⟨hkey, hnone⟩, hget⟩
    · rintro (⟨before, after, heq, hlast⟩ | ⟨⟨hkey, hnone⟩, hget⟩)
      · cases before with
        | nil =>
          obtain ⟨rfl, rfl⟩ := List.cons.inj heq
          exact .inr ⟨hlast, if_pos rfl⟩
        | cons e' before =>
          obtain ⟨rfl, rfl⟩ := List.cons.inj heq
          exact .inl ⟨before, after, rfl, hlast⟩
      · exact .inr ⟨hnone, by rw [if_neg hkey, hget]⟩

/-- a dictionary made from a list holds the last value for each key -/
theorem get?_ofList (l : List (α × β)) (k : α) :
    (ofList l).get? k = (l.filter fun e => e.1 = k).getLast?.map Prod.snd := by
  induction l using List.reverseRecOn with
  | nil => rfl
  | append_singleton l e ih =>
    have hset : ofList (l ++ [e]) = (ofList l).set e.1 e.2 := by
      rw [ofList, foldl_append]
      rfl
    rw [hset, get?_set, ih, filter_append]
    by_cases hk : k = e.1
    · simp [hk]
    · simp [hk, Ne.symm hk]

theorem mem_values (d : Dict α β) (v : β) : v ∈ d.values ↔ ∃ k, d.get? k = some v := by
  simp [values, get?_eq_some_iff]

/-- the entries whose values satisfy a test -/
def filter (p : β → Bool) (d : Dict α β) : Dict α β :=
  ⟨d.entries.filter fun e => p e.2, d.nodup.sublist (filter_sublist.map Prod.fst)⟩

theorem get?_filter_iff (p : β → Bool) (d : Dict α β) (k : α) (v : β) :
    (d.filter p).get? k = some v ↔ d.get? k = some v ∧ p v = true := by
  rw [get?_eq_some_iff, get?_eq_some_iff, filter, mem_filter]

end Dict

end Langbridge.Core
