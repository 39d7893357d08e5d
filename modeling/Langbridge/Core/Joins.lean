/-
Null-extending joins over lists of rows, and when a filter may be moved from above a chain of joins to the rows of one
input. An environment gives every joined input its current row; `none` is the null-extended row of an outer join.

A chain is a list of steps, each joining one more input to everything joined so far (`INNER`, `LEFT`, `RIGHT` or
`FULL`, with an arbitrary condition). `restrict` filters the inputs of a chain by per-input predicates.

Main results: `join_filter_restrict`, `filter_restrict_of_keeps`, `isSome_of_not_nullable`, `join_map`.
-/
import Mathlib.Tactic

namespace Langbridge.Core.Joins

open List

variable {ι R S : Type} [DecidableEq ι]

/-- the current row of every joined input -/
abbrev Env (ι R : Type) := ι → Option R

inductive Kind where
  | inner
  | left
  | right
  | full
deriving DecidableEq

/-- joining one more input -/
structure Step (ι R : Type) where
  idx : ι
  rows : List R
  kind : Kind
  on : Env ι R → Bool

/-- no input is real -/
def blank : Env ι R := fun _ => none

/-- the environments that extend `e` by a matching row -/
def matching (s : Step ι R) (e : Env ι R) : List (Env ι R) :=
  (s.rows.map fun r => Function.update e s.idx (some r)).filter s.on

/-- the same, null-extended when no row matches -/
def matchingOrNull (s : Step ι R) (e : Env ι R) : List (Env ι R) :=
  if (matching s e).isEmpty then [Function.update e s.idx none] else matching s e

/-- the rows of the new input that match nothing joined so far -/
def unmatched (s : Step ι R) (l : List (Env ι R)) : List (Env ι R) :=
  (s.rows.filter fun r => !l.any fun e => s.on (Function.update e s.idx (some r))).map
    fun r => Function.update blank s.idx (some r)

def joinStep (l : List (Env ι R)) (s : Step ι R) : List (Env ι R) :=
  match s.kind with
  | .inner => l.flatMap (matching s)
  | .left => l.flatMap (matchingOrNull s)
  | .right => l.flatMap (matching s) ++ unmatched s l
  | .full => l.flatMap (matchingOrNull s) ++ unmatched s l

/-- the chain; the first input is an inner step on the blank environment -/
def join (steps : List (Step ι R)) : List (Env ι R) := steps.foldl joinStep [blank]

/-! ## Filtering the inputs -/

section Restrict

variable (pushed : ι → Bool) (p : ι → R → Bool)

/-- the rows of input `i` that its filter keeps -/
def passes (i : ι) (r : R) : Bool := !pushed i || p i r

def restrict (s : Step ι R) : Step ι R := { s with rows := s.rows.filter (passes pushed p s.idx) }

/-- input `i` is unfiltered, or real and kept by its filter -/
def keepsAt (e : Env ι R) (i : ι) : Bool := !pushed i || (e i).any (p i)

/-- the same for every input of a list -/
def keeps (is : List ι) (e : Env ι R) : Bool := is.all (keepsAt pushed p e)

variable {pushed p}

omit [DecidableEq ι] in
theorem restrict_of_not_pushed (s : Step ι R) (h : pushed s.idx = false) : restrict pushed p s = s := by
  have hp : passes pushed p s.idx = fun _ => true := by
    funext r
    simp [passes, h]
  rw [restrict, hp, filter_true]

theorem keeps_update (is : List ι) (e : Env ι R) (i : ι) (o : Option R) (hi : i ∉ is) :
    keeps pushed p is (Function.update e i o) = keeps pushed p is e := by
  have hat : ∀ j ∈ is, keepsAt pushed p (Function.update e i o) j = keepsAt pushed p e j := by
    intro j hj
    have hji : j ≠ i := fun h => hi (h ▸ hj)
    simp only [keepsAt, Function.update_of_ne hji]
  rw [keeps, keeps, Bool.eq_iff_iff, all_eq_true, all_eq_true]
  exact forall₂_congr fun j hj => by rw [hat j hj]

theorem keepsAt_some (e : Env ι R) (i : ι) (r : R) :
    keepsAt pushed p (Function.update e i (some r)) i = passes pushed p i r := by
  simp [keepsAt, passes]

theorem keepsAt_none (e : Env ι R) (i : ι) (h : pushed i = true) :
    keepsAt pushed p (Function.update e i none) i = false := by
  simp [keepsAt, h]

omit [DecidableEq ι] in
theorem keeps_cons (is : List ι) (i : ι) (e : Env ι R) :
    keeps pushed p (i :: is) e = (keepsAt pushed p e i && keeps pushed p is e) := rfl

/-- a filter that distributes over the pieces of a `flatMap` -/
theorem filter_flatMap_of_ite {α β : Type} (l : List α) (f g : α → List β) (k : β → Bool) (q : α → Bool)
    (h : ∀ a, (f a).filter k = if q a then g a else []) : (l.flatMap f).filter k = (l.filter q).flatMap g := by
  induction l with
  | nil => rfl
  | cons a l ih =>
    rw [flatMap_cons, filter_append, h, ih]
    by_cases ha : q a = true
    · rw [if_pos ha, filter_cons_of_pos ha, flatMap_cons]
    · rw [if_neg ha, filter_cons_of_neg ha, nil_append]

theorem matching_restrict (s : Step ι R) (e : Env ι R) :
    matching (restrict pushed p s) e = (matching s e).filter fun x => keepsAt pushed p x s.idx := by
  simp only [matching, restrict, filter_map, filter_filter, Function.comp_def,
    keepsAt_some]
  refine congrArg (List.map _) (filter_congr fun r _ => ?_)
  exact Bool.and_comm _ _

/-- what survives of the matches of one environment -/
theorem matching_filter (s : Step ι R) (is : List ι) (hi : s.idx ∉ is) (e : Env ι R) :
    (matching s e).filter (keeps pushed p (s.idx :: is)) =
      if keeps pushed p is e then matching (restrict pushed p s) e else [] := by
  have hx : ∀ x ∈ matching s e, keeps pushed p (s.idx :: is) x =
      (keepsAt pushed p x s.idx && keeps pushed p is e) := by
    intro x hx
    obtain ⟨r, _, rfl⟩ := mem_map.1 (mem_filter.1 hx).1
    rw [keeps_cons, keeps_update is e s.idx (some r) hi]
  rw [filter_congr hx, matching_restrict]
  by_cases hk : keeps pushed p is e = true
  · simp [hk]
  · simp [hk]

omit [DecidableEq ι] in
theorem restrict_restrict (s : Step ι R) :
    restrict pushed p (restrict pushed p s) = restrict pushed p s := by
  simp [restrict, filter_filter]

theorem flatMap_matching_filter (s : Step ι R) (is : List ι) (hi : s.idx ∉ is) (l : List (Env ι R)) :
    (l.flatMap (matching s)).filter (keeps pushed p (s.idx :: is)) =
      (l.filter (keeps pushed p is)).flatMap (matching (restrict pushed p s)) :=
  filter_flatMap_of_ite l _ _ _ _ (matching_filter s is hi)

/-- what survives of the matches of one environment, null-extended or not -/
theorem matchingOrNull_filter (s : Step ι R) (is : List ι) (hi : s.idx ∉ is) (e : Env ι R) :
    (matchingOrNull s e).filter (keeps pushed p (s.idx :: is)) =
      if keeps pushed p is e then
        if pushed s.idx then matching (restrict pushed p s) e else matchingOrNull s e
      else [] := by
  cases hp : pushed s.idx with
  | true =>
    simp only [if_true]
    by_cases hm : (matching s e).isEmpty = true
    · -- the null-extended row does not satisfy the filter of a filtered input
      have hnil : matching s e = [] := isEmpty_iff.1 hm
      rw [matchingOrNull, if_pos hm, matching_restrict, hnil]
      simp [keeps_cons, keepsAt_none e s.idx hp]
    · rw [matchingOrNull, if_neg hm, matching_filter s is hi]
  | false =>
    have hall : ∀ x ∈ matchingOrNull s e, keeps pushed p (s.idx :: is) x = keeps pushed p is e := by
      have hat : ∀ x : Env ι R, keepsAt pushed p x s.idx = true := fun x => by simp [keepsAt, hp]
      intro x hx
      rw [matchingOrNull] at hx
      rw [keeps_cons, hat, Bool.true_and]
      split_ifs at hx with hm
      · rw [mem_singleton.1 hx, keeps_update is e s.idx none hi]
      · obtain ⟨r, _, rfl⟩ := mem_map.1 (mem_filter.1 hx).1
        exact keeps_update is e s.idx (some r) hi
    rw [filter_congr hall]
    cases keeps pushed p is e <;> simp

theorem flatMap_matchingOrNull_filter (s : Step ι R) (is : List ι) (hi : s.idx ∉ is) (l : List (Env ι R)) :
    (l.flatMap (matchingOrNull s)).filter (keeps pushed p (s.idx :: is)) =
      (l.filter (keeps pushed p is)).flatMap
        (fun e => if pushed s.idx then matching (restrict pushed p s) e else matchingOrNull s e) :=
  filter_flatMap_of_ite l _ _ _ _ (matchingOrNull_filter s is hi)

theorem unmatched_restrict (s : Step ι R) (l : List (Env ι R)) :
    unmatched (restrict pushed p s) l = (unmatched s l).filter fun x => keepsAt pushed p x s.idx := by
  simp only [unmatched, restrict, filter_map, filter_filter, Function.comp_def, keepsAt_some]
  refine congrArg (List.map _) (filter_congr fun r _ => ?_)
  exact Bool.and_comm _ _

/-- an input joined earlier is null in every unmatched row -/
theorem unmatched_filter_of_pushed (s : Step ι R) (is : List ι) (hi : s.idx ∉ is) (l : List (Env ι R)) (j : ι)
    (hj : j ∈ is) (hp : pushed j = true) : (unmatched s l).filter (keeps pushed p (s.idx :: is)) = [] := by
  rw [filter_eq_nil_iff]
  intro x hx
  obtain ⟨r, _, rfl⟩ := mem_map.1 hx
  rw [keeps_cons, keeps_update is blank s.idx (some r) hi]
  have hblank : keeps pushed p is (blank : Env ι R) = false := by
    rw [keeps, all_eq_false]
    exact ⟨j, hj, by simp [keepsAt, blank, hp]⟩
  simp [hblank]

omit [DecidableEq ι] in
theorem keeps_of_not_pushed (is : List ι) (h : ∀ j ∈ is, pushed j = false) (e : Env ι R) :
    keeps pushed p is e = true := by
  rw [keeps, all_eq_true]
  intro j hj
  simp [keepsAt, h j hj]

/-- **One join.** If the chains so far agree on the environments that keep the filters, they do after one more join
whose input is filtered on one side. -/
theorem joinStep_filter (s : Step ι R) (is : List ι) (hi : s.idx ∉ is) (l l' : List (Env ι R))
    (hl : l.filter (keeps pushed p is) = l'.filter (keeps pushed p is)) :
    (joinStep l s).filter (keeps pushed p (s.idx :: is)) =
      (joinStep l' (restrict pushed p s)).filter (keeps pushed p (s.idx :: is)) := by
  set kept := keeps pushed p (s.idx :: is) with hkept
  set s' := restrict pushed p s with hs'
  have hmatch : (l.flatMap (matching s)).filter kept =
      (l'.flatMap (matching s')).filter kept := by
    have h' : (l'.flatMap (matching s')).filter kept = _ :=
      flatMap_matching_filter s' is hi l'
    rw [flatMap_matching_filter s is hi, hl, h', hs', restrict_restrict]
  have hnull : (l.flatMap (matchingOrNull s)).filter kept =
      (l'.flatMap (matchingOrNull s')).filter kept := by
    have h' : (l'.flatMap (matchingOrNull s')).filter kept = _ :=
      flatMap_matchingOrNull_filter s' is hi l'
    have hidx : s'.idx = s.idx := rfl
    rw [flatMap_matchingOrNull_filter s is hi, hl, h', hidx]
    cases hp : pushed s.idx with
    | true => simp [hs', restrict_restrict]
    | false => simp [hs', restrict_of_not_pushed s hp]
  have hun : (unmatched s l).filter kept =
      (unmatched s' l').filter kept := by
    by_cases hex : ∃ j ∈ is, pushed j = true
    · obtain ⟨j, hj, hp⟩ := hex
      have h' : (unmatched s' l').filter kept = [] :=
        unmatched_filter_of_pushed s' is hi l' j hj hp
      rw [unmatched_filter_of_pushed s is hi l j hj hp, h']
    · -- nothing joined earlier is filtered, so both chains are the same so far
      have hnone : ∀ j ∈ is, pushed j = false := fun j hj => by
        by_contra h
        exact hex ⟨j, hj, by simpa using h⟩
      have hll : l = l' := by
        have hk : keeps pushed p is = fun _ : Env ι R => true := by
          funext e
          exact keeps_of_not_pushed is hnone e
        simpa [hk] using hl
      rw [hll, unmatched_restrict, filter_filter]
      refine filter_congr fun x _ => ?_
      rw [hkept, keeps_cons]
      cases keepsAt pushed p x s.idx <;> simp
  have hkind : s'.kind = s.kind := rfl
  rw [joinStep, joinStep, hkind]
  cases s.kind with
  | inner => exact hmatch
  | left => exact hnull
  | right => rw [filter_append, filter_append, hmatch, hun]
  | full => rw [filter_append, filter_append, hnull, hun]

theorem foldl_filter_restrict (steps : List (Step ι R)) (is : List ι) (l l' : List (Env ι R))
    (hnd : (steps.map Step.idx).Nodup) (hdisj : ∀ s ∈ steps, s.idx ∉ is)
    (hl : l.filter (keeps pushed p is) = l'.filter (keeps pushed p is)) :
    (steps.foldl joinStep l).filter (keeps pushed p ((steps.map Step.idx).reverse ++ is)) =
      ((steps.map (restrict pushed p)).foldl joinStep l').filter
        (keeps pushed p ((steps.map Step.idx).reverse ++ is)) := by
  induction steps generalizing is l l' with
  | nil => exact hl
  | cons s steps ih =>
    rw [map_cons, nodup_cons] at hnd
    have hstep := joinStep_filter s is (hdisj s mem_cons_self) l l' hl
    have hdisj' : ∀ t ∈ steps, t.idx ∉ s.idx :: is := by
      intro t ht hmem
      rcases mem_cons.1 hmem with h | h
      · exact hnd.1 (h ▸ mem_map_of_mem ht)
      · exact hdisj t (mem_cons_of_mem s ht) h
    have h := ih (s.idx :: is) _ _ hnd.2 hdisj' hstep
    simpa only [map_cons, reverse_cons, append_assoc, singleton_append, foldl_cons] using h

/-- **Filtering the inputs.** On the environments in which every filtered input is real and kept by its filter, a
chain and its restriction agree. -/
theorem join_filter_restrict (steps : List (Step ι R)) (hnd : (steps.map Step.idx).Nodup) :
    (join steps).filter (keeps pushed p (steps.map Step.idx)) =
      (join (steps.map (restrict pushed p))).filter (keeps pushed p (steps.map Step.idx)) := by
  have hnil : [blank].filter (keeps pushed p []) = [blank].filter (keeps pushed p []) := rfl
  have h := foldl_filter_restrict steps [] [blank] [blank] hnd (fun s _ => not_mem_nil) hnil
  have hk : keeps pushed p ((steps.map Step.idx).reverse ++ []) = keeps pushed p (steps.map Step.idx) := by
    funext e
    simp [keeps]
  rwa [hk] at h

/-- **Moving a filter below the joins.** A condition that holds only where the input filters do cannot tell the chain
from its restriction. -/
theorem filter_restrict_of_keeps (steps : List (Step ι R)) (hnd : (steps.map Step.idx).Nodup)
    (w : Env ι R → Bool) (hw : ∀ e ∈ join steps, w e = true → keeps pushed p (steps.map Step.idx) e = true)
    (hw' : ∀ e ∈ join (steps.map (restrict pushed p)), w e = true →
      keeps pushed p (steps.map Step.idx) e = true) :
    (join (steps.map (restrict pushed p))).filter w = (join steps).filter w := by
  have hsplit : ∀ l : List (Env ι R), (∀ e ∈ l, w e = true → keeps pushed p (steps.map Step.idx) e = true) →
      l.filter w = (l.filter (keeps pushed p (steps.map Step.idx))).filter w := by
    intro l hl
    rw [filter_filter]
    refine filter_congr fun e he => ?_
    cases h : w e with
    | false => rfl
    | true => rw [hl e he h, Bool.true_and]
  rw [hsplit _ hw, hsplit _ hw', join_filter_restrict steps hnd]

end Restrict

/-! ## Null-supplied inputs -/

section Nullable

omit [DecidableEq ι] in
/-- the inputs joined so far and those of them an outer join may null-extend, after one more join -/
def nullStep (st : List ι × List ι) (s : ι × Kind) : List ι × List ι :=
  match s.2 with
  | .inner => (s.1 :: st.1, st.2)
  | .left => (s.1 :: st.1, s.1 :: st.2)
  | .right => (s.1 :: st.1, st.1 ++ st.2)
  | .full => (s.1 :: st.1, s.1 :: (st.1 ++ st.2))

/-- the inputs on a null-supplied side: right of a `LEFT` or `FULL` join, left of a `RIGHT` or `FULL` one -/
def nullable (steps : List (ι × Kind)) : List ι := (steps.foldl nullStep ([], [])).2

/-- what a join needs to know of the static chain -/
def Step.shape (s : Step ι R) : ι × Kind := (s.idx, s.kind)

omit [DecidableEq ι] in
theorem nullStep_fst (st : List ι × List ι) (s : ι × Kind) : (nullStep st s).1 = s.1 :: st.1 := by
  rw [nullStep]
  cases s.2 <;> rfl

omit [DecidableEq ι] in
theorem mem_nullStep (st : List ι × List ι) (s : ι × Kind) (i : ι) (h : i ∈ st.2) : i ∈ (nullStep st s).2 := by
  rw [nullStep]
  cases s.2 <;> simp [h]

theorem isSome_matching (s : Step ι R) (e x : Env ι R) (hx : x ∈ matching s e) (i : ι)
    (h : i = s.idx ∨ (e i).isSome) : (x i).isSome := by
  obtain ⟨r, _, rfl⟩ := mem_map.1 (mem_filter.1 hx).1
  by_cases hi : i = s.idx
  · rw [hi, Function.update_self]
    rfl
  · rw [Function.update_of_ne hi]
    exact h.resolve_left hi

theorem isSome_matchingOrNull (s : Step ι R) (e x : Env ι R) (hx : x ∈ matchingOrNull s e) (i : ι) (hi : i ≠ s.idx)
    (h : (e i).isSome) : (x i).isSome := by
  rw [matchingOrNull] at hx
  split_ifs at hx with hm
  · rw [mem_singleton.1 hx, Function.update_of_ne hi]
    exact h
  · exact isSome_matching s e x hx i (.inr h)

/-- one join keeps the real inputs real -/
theorem joinStep_isSome (s : Step ι R) (l : List (Env ι R)) (st : List ι × List ι)
    (hl : ∀ e ∈ l, ∀ i ∈ st.1, i ∉ st.2 → (e i).isSome) :
    ∀ x ∈ joinStep l s, ∀ i ∈ (nullStep st s.shape).1, i ∉ (nullStep st s.shape).2 → (x i).isSome := by
  intro x hx i hi hn
  rw [nullStep_fst] at hi
  have hreal : ∀ e ∈ l, i ≠ s.idx → (e i).isSome := fun e he hne =>
    hl e he i ((mem_cons.1 hi).resolve_left hne) fun h => hn (mem_nullStep st s.shape i h)
  have hmatching : x ∈ l.flatMap (matching s) → (x i).isSome := by
    intro h
    obtain ⟨e, he, hx⟩ := mem_flatMap.1 h
    refine isSome_matching s e x hx i ?_
    by_cases hne : i = s.idx
    · exact .inl hne
    · exact .inr (hreal e he hne)
  have hnull : x ∈ l.flatMap (matchingOrNull s) → i ≠ s.idx → (x i).isSome := by
    intro h hne
    obtain ⟨e, he, hx⟩ := mem_flatMap.1 h
    exact isSome_matchingOrNull s e x hx i hne (hreal e he hne)
  have hunmatched : x ∈ unmatched s l → i = s.idx → (x i).isSome := by
    intro h hne
    obtain ⟨r, _, rfl⟩ := mem_map.1 h
    rw [hne, Function.update_self]
    rfl
  rw [joinStep] at hx
  rw [nullStep] at hn
  cases hk : s.kind with
  | inner =>
    rw [hk] at hx
    exact hmatching hx
  | left =>
    simp only [hk, Step.shape, mem_cons, not_or] at hx hn
    exact hnull hx hn.1
  | right =>
    simp only [hk, Step.shape, mem_append, not_or] at hx hn
    rcases hx with hx | hx
    · exact hmatching hx
    · exact hunmatched hx ((mem_cons.1 hi).resolve_right hn.1)
  | full =>
    simp only [hk, Step.shape, mem_cons, mem_append, not_or] at hx hn
    rcases hx with hx | hx
    · exact hnull hx hn.1
    · exact hunmatched hx ((mem_cons.1 hi).resolve_right hn.2.1)

theorem foldl_isSome (steps : List (Step ι R)) (l : List (Env ι R)) (st : List ι × List ι)
    (hl : ∀ e ∈ l, ∀ i ∈ st.1, i ∉ st.2 → (e i).isSome) :
    ∀ x ∈ steps.foldl joinStep l, ∀ i ∈ ((steps.map Step.shape).foldl nullStep st).1,
      i ∉ ((steps.map Step.shape).foldl nullStep st).2 → (x i).isSome := by
  induction steps generalizing l st with
  | nil => exact hl
  | cons s steps ih =>
    exact ih (joinStep l s) (nullStep st s.shape) (joinStep_isSome s l st hl)

omit [DecidableEq ι] in
theorem mem_foldl_nullStep (steps : List (ι × Kind)) (st : List ι × List ι) (i : ι) :
    i ∈ (steps.foldl nullStep st).1 ↔ i ∈ steps.map Prod.fst ∨ i ∈ st.1 := by
  induction steps generalizing st with
  | nil => simp
  | cons s steps ih =>
    rw [foldl_cons, ih, nullStep_fst, map_cons, mem_cons, mem_cons]
    tauto

/-- **Real inputs.** An input on no null-supplied side is real in every environment of the chain. -/
theorem isSome_of_not_nullable (steps : List (Step ι R)) (e : Env ι R) (he : e ∈ join steps) (i : ι)
    (hi : i ∈ steps.map Step.idx) (hn : i ∉ nullable (steps.map Step.shape)) : (e i).isSome := by
  refine foldl_isSome steps [blank] ([], []) (by simp) e he i ?_ hn
  rw [mem_foldl_nullStep]
  exact .inl (by simpa [Step.shape, Function.comp_def] using hi)

end Nullable

/-! ## Mapping the rows -/

section Map

variable (f : ι → R → S)

/-- the environment with every row mapped -/
def mapEnv (e : Env ι R) : Env ι S := fun i => (e i).map (f i)

/-- a step on mapped rows whose condition does not notice -/
structure Maps (s : Step ι R) (s' : Step ι S) : Prop where
  idx : s'.idx = s.idx
  kind : s'.kind = s.kind
  rows : s'.rows = s.rows.map (f s.idx)
  on : ∀ e, s'.on (mapEnv f e) = s.on e

omit [DecidableEq ι] in
theorem mapEnv_blank : mapEnv f (blank : Env ι R) = blank := rfl

theorem mapEnv_update (e : Env ι R) (i : ι) (o : Option R) :
    mapEnv f (Function.update e i o) = Function.update (mapEnv f e) i (o.map (f i)) := by
  funext j
  by_cases h : j = i
  · subst h
    simp [mapEnv]
  · simp [mapEnv, Function.update_of_ne h]

variable {f}

omit [DecidableEq ι] in
/-- filtering and mapping rows through two maps that agree -/
theorem map_filter_map {α β γ δ : Type} (l : List α) (u : α → β) (v : γ → δ) (g : α → γ) (m : β → δ) (q : β → Bool)
    (q' : δ → Bool) (hv : ∀ a, v (g a) = m (u a)) (hq : ∀ b, q' (m b) = q b) :
    ((l.map g).map v).filter q' = ((l.map u).filter q).map m := by
  induction l with
  | nil => rfl
  | cons a l ih =>
    simp only [map_cons, filter_cons, hv, hq, ih]
    split <;> rfl

variable {s : Step ι R} {s' : Step ι S}

theorem matching_map (h : Maps f s s') (e : Env ι R) : matching s' (mapEnv f e) = (matching s e).map (mapEnv f) := by
  rw [matching, matching, h.rows, h.idx]
  refine map_filter_map s.rows _ _ _ _ _ _ (fun r => ?_) h.on
  rw [mapEnv_update, Option.map_some]

theorem matchingOrNull_map (h : Maps f s s') (e : Env ι R) :
    matchingOrNull s' (mapEnv f e) = (matchingOrNull s e).map (mapEnv f) := by
  rw [matchingOrNull, matchingOrNull, matching_map h, h.idx, isEmpty_map]
  split_ifs with hm
  · rw [map_singleton, mapEnv_update, Option.map_none]
  · rfl

theorem unmatched_map (h : Maps f s s') (l : List (Env ι R)) :
    unmatched s' (l.map (mapEnv f)) = (unmatched s l).map (mapEnv f) := by
  have hon : ∀ r, (l.map (mapEnv f)).any (fun e => s'.on (Function.update e s.idx (some (f s.idx r)))) =
      l.any fun e => s.on (Function.update e s.idx (some r)) := by
    intro r
    rw [any_map]
    refine congrArg (fun g => l.any g) (funext fun e => ?_)
    have he := mapEnv_update f e s.idx (some r)
    rw [Option.map_some] at he
    rw [Function.comp_apply, ← he, h.on]
  rw [unmatched, unmatched, h.rows, h.idx, filter_map, List.map_map, List.map_map]
  simp only [Function.comp_def, hon]
  refine map_congr_left fun r _ => ?_
  rw [mapEnv_update, mapEnv_blank, Option.map_some]

theorem joinStep_map (h : Maps f s s') (l : List (Env ι R)) :
    joinStep (l.map (mapEnv f)) s' = (joinStep l s).map (mapEnv f) := by
  have hmatching : (l.map (mapEnv f)).flatMap (matching s') = (l.flatMap (matching s)).map (mapEnv f) := by
    rw [flatMap_map, map_flatMap]
    exact congrArg (fun g => l.flatMap g) (funext fun e => matching_map h e)
  have hnull : (l.map (mapEnv f)).flatMap (matchingOrNull s') =
      (l.flatMap (matchingOrNull s)).map (mapEnv f) := by
    rw [flatMap_map, map_flatMap]
    exact congrArg (fun g => l.flatMap g) (funext fun e => matchingOrNull_map h e)
  rw [joinStep, joinStep, h.kind]
  cases s.kind with
  | inner => exact hmatching
  | left => exact hnull
  | right => rw [hmatching, unmatched_map h, map_append]
  | full => rw [hnull, unmatched_map h, map_append]

/-- **Mapping the rows.** A chain over mapped rows, whose conditions do not notice, is the mapped chain. -/
theorem join_map {steps : List (Step ι R)} {steps' : List (Step ι S)} (h : List.Forall₂ (Maps f) steps steps') :
    join steps' = (join steps).map (mapEnv f) := by
  have hfold : ∀ l : List (Env ι R), steps'.foldl joinStep (l.map (mapEnv f)) =
      (steps.foldl joinStep l).map (mapEnv f) := by
    induction h with
    | nil => exact fun l => rfl
    | cons hs _ ih =>
      intro l
      rw [foldl_cons, foldl_cons, joinStep_map hs, ih]
  exact hfold [blank]

end Map

end Langbridge.Core.Joins
