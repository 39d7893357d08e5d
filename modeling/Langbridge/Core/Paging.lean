/-
Sources read page by page: every page names the cursor of the next one, or ends the chain.

`Chain` is the whole chain from a cursor, `fetchUpTo` the client that gives up after a number of pages. A chain is
determined by the source (`Chain.unique`), and the bounded client reads the beginning of it (`Chain.fetchUpTo`).
-/
import Mathlib.Tactic

namespace Langbridge.Core.Paging

open List

variable {C P E : Type} (fetch : C → Except E P) (next : P → Option C)

/-- the pages chained from a cursor -/
inductive Chain : C → List P → Prop where
  | last {c : C} {p : P} : fetch c = .ok p → next p = none → Chain c [p]
  | more {c c' : C} {p : P} {ps : List P} : fetch c = .ok p → next p = some c' → Chain c' ps → Chain c (p :: ps)

/-- the first pages of the chain, at most a number of them -/
def fetchUpTo : ℕ → C → Except E (List P)
  | 0, _ => .ok []
  | n + 1, c =>
    match fetch c with
    | .error e => .error e
    | .ok p =>
      match next p with
      | none => .ok [p]
      | some c' =>
        match fetchUpTo n c' with
        | .error e => .error e
        | .ok ps => .ok (p :: ps)

variable {fetch next}

theorem Chain.fetched {c : C} {ps : List P} (h : Chain fetch next c ps) {p : P} (hp : p ∈ ps) :
    ∃ c', fetch c' = .ok p := by
  induction h with
  | last hfetch _ => exact ⟨_, mem_singleton.1 hp ▸ hfetch⟩
  | more hfetch _ _ ih =>
    rcases mem_cons.1 hp with rfl | hrest
    · exact ⟨_, hfetch⟩
    · exact ih hrest

/-- a source has one chain from a cursor -/
theorem Chain.unique {c : C} {ps qs : List P} (h : Chain fetch next c ps) (h' : Chain fetch next c qs) : ps = qs := by
  induction h generalizing qs with
  | last hf hn =>
    cases h' with
    | last hf' _ =>
      rw [hf] at hf'
      rw [Except.ok.inj hf']
    | more hf' hn' _ =>
      rw [hf] at hf'
      rw [← Except.ok.inj hf', hn] at hn'
      cases hn'
  | more hf hn _ ih =>
    cases h' with
    | last hf' hn' =>
      rw [hf] at hf'
      rw [← Except.ok.inj hf', hn] at hn'
      cases hn'
    | more hf' hn' ht =>
      rw [hf] at hf'
      cases hf'
      rw [hn] at hn'
      cases hn'
      rw [ih ht]

/-- A source that serves the places `l` of a list: from the cursor at one, the page holds `read l`, and the next page is
at the place `rest l` unless the page stops there. Its chain reads what the walk over the list reads. -/
theorem Chain.of_walk {α β : Type} (At : C → List α → Prop) (out : P → List β) (read walk : List α → List β)
    (stops : List α → Bool) (rest : List α → List α)
    (hwalk : ∀ l, walk l = if stops l then read l else read l ++ walk (rest l))
    (hrest : ∀ l, stops l = false → (rest l).length < l.length)
    (hpage : ∀ c l, At c l → ∃ p, fetch c = .ok p ∧ out p = read l ∧
      if stops l then next p = none else ∃ c', next p = some c' ∧ At c' (rest l))
    (c : C) (l : List α) (hat : At c l) : ∃ ps, Chain fetch next c ps ∧ ps.flatMap out = walk l := by
  induction hlength : l.length using Nat.strong_induction_on generalizing c l with
  | _ length ih =>
    subst hlength
    obtain ⟨p, hfetch, hout, hnext⟩ := hpage c l hat
    rw [hwalk]
    cases hstop : stops l with
    | true =>
      rw [hstop, if_pos rfl] at hnext
      exact ⟨[p], .last hfetch hnext, by rw [flatMap_singleton, hout, if_pos rfl]⟩
    | false =>
      rw [hstop, if_neg Bool.false_ne_true] at hnext
      obtain ⟨c', hc', hat'⟩ := hnext
      obtain ⟨ps, hps, hreads⟩ := ih _ (hrest l hstop) c' (rest l) hat' rfl
      refine ⟨p :: ps, .more hfetch hc' hps, ?_⟩
      rw [flatMap_cons, hout, hreads, if_neg Bool.false_ne_true]

/-- the bounded client reads the beginning of the chain -/
theorem Chain.fetchUpTo {c : C} {ps : List P} (h : Chain fetch next c ps) (n : ℕ) :
    fetchUpTo fetch next n c = .ok (ps.take n) := by
  induction h generalizing n with
  | last hf hn =>
    cases n with
    | zero => rfl
    | succ n => simp only [Paging.fetchUpTo, hf, hn, take_succ_cons, take_nil]
  | more hf hn _ ih =>
    cases n with
    | zero => rfl
    | succ n => simp only [Paging.fetchUpTo, hf, hn, ih n, take_succ_cons]

/-! ## What the pages say of their records -/

section Pages

variable {α : Type}

theorem max?_append [LinearOrder α] (xs ys : List α) : (xs ++ ys).max? = Option.merge max xs.max? ys.max? := by
  induction xs with
  | nil => rw [nil_append, max?_nil, Option.merge_none_left]
  | cons x xs ih =>
    rw [cons_append, max?_cons, max?_cons, ih]
    cases xs.max? <;> cases ys.max? <;> simp [max_assoc]

/-- the greatest of the greatest of each page is the greatest of all -/
theorem max?_filterMap_max? [LinearOrder α] (pages : List (List α)) :
    (pages.filterMap List.max?).max? = pages.flatten.max? := by
  induction pages with
  | nil => rfl
  | cons page pages ih =>
    rw [flatten_cons, max?_append, ← ih]
    cases hpage : page.max? with
    | none => rw [filterMap_cons_none hpage, Option.merge_none_left]
    | some a =>
      rw [filterMap_cons_some hpage, max?_cons]
      cases (pages.filterMap List.max?).max? <;> rfl

/-- the beginning of a list, whose later members are wanted once an earlier one is, has the wanted members of the whole
list iff it is the whole list or nothing is wanted -/
theorem filter_take_perm_iff (wanted : α → Bool) {l : List α}
    (h : l.Pairwise fun a b => wanted a = true → wanted b = true) (n : ℕ) :
    ((l.take n).filter wanted).Perm (l.filter wanted) ↔ l.length ≤ n ∨ ∀ a ∈ l, wanted a = false := by
  constructor
  · intro hperm
    rcases Nat.lt_or_ge n l.length with hlt | hge
    · right
      have hlost : (l.drop n).filter wanted = [] := by
        have hlength := hperm.length_eq
        conv_rhs at hlength => rw [← take_append_drop n l, filter_append, length_append]
        exact eq_nil_of_length_eq_zero (by omega)
      obtain ⟨z, hz⟩ := exists_mem_of_ne_nil (l.drop n) (by rw [Ne, drop_eq_nil_iff]; omega)
      rw [← take_append_drop n l, pairwise_append] at h
      rw [filter_eq_nil_iff] at hlost
      intro a ha
      rw [← take_append_drop n l, mem_append] at ha
      rcases ha with ha | ha
      · exact Bool.eq_false_iff.2 fun hw => hlost z hz (h.2.2 a ha z hz hw)
      · exact Bool.eq_false_iff.2 (hlost a ha)
    · exact .inl hge
  · rintro (hge | hnone)
    · rw [take_of_length_le hge]
    · rw [filter_eq_nil_iff.2 fun a ha => by rw [hnone a (mem_of_mem_take ha)]; exact Bool.false_ne_true,
        filter_eq_nil_iff.2 fun a ha => by rw [hnone a ha]; exact Bool.false_ne_true]

end Pages

end Langbridge.Core.Paging
