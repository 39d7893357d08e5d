/-
How often a row of one input occurs among the rows of a chain of joins. The inputs form a tree: each link joins a new
input to one that is joined already, by a relation between their rows.

Main results: `count_joinStep_of_old`, `count_joinStep_of_new`, `count_le_one`.
-/
import Mathlib.Logic.Relation
import Langbridge.Core.Joins

namespace Langbridge.Core.Joins

open List Function

variable {ι R : Type} [DecidableEq ι] [DecidableEq R]

/-- how often a row of an input occurs -/
def occurrences (i : ι) (r : R) (l : List (Env ι R)) : ℕ := l.countP fun e => e i = some r

/-! ## One join -/

omit [DecidableEq ι] in
theorem occurrences_append (i : ι) (r : R) (l l' : List (Env ι R)) :
    occurrences i r (l ++ l') = occurrences i r l + occurrences i r l' := countP_append

/-- pieces that count no more than what they come from -/
theorem countP_flatMap_le {α β : Type} (p : β → Bool) (q : α → Bool) (f : α → List β) (l : List α)
    (h : ∀ a ∈ l, (f a).countP p ≤ if q a then 1 else 0) : (l.flatMap f).countP p ≤ l.countP q := by
  induction l with
  | nil => simp
  | cons a l ih =>
    have ha := h a mem_cons_self
    have hl := ih fun b hb => h b (mem_cons_of_mem a hb)
    rw [flatMap_cons, countP_append, countP_cons]
    omega

omit [DecidableEq R] in
/-- a condition that at most one element of a list without repetition meets -/
theorem countP_le_one {l : List R} (hnodup : l.Nodup) {p : R → Bool}
    (h : ∀ a ∈ l, ∀ b ∈ l, p a = true → p b = true → a = b) : l.countP p ≤ 1 := by
  induction l with
  | nil => simp
  | cons a l ih =>
    rw [nodup_cons] at hnodup
    have hl := ih hnodup.2 fun x hx y hy => h x (mem_cons_of_mem a hx) y (mem_cons_of_mem a hy)
    rw [countP_cons]
    split_ifs with ha
    · have hzero : l.countP p = 0 := by
        rw [countP_eq_zero]
        intro b hb hpb
        exact hnodup.1 (h a mem_cons_self b (mem_cons_of_mem a hb) ha hpb ▸ hb)
      omega
    · exact hl

omit [DecidableEq R] in
theorem matching_at (s : Step ι R) (e x : Env ι R) (hx : x ∈ matching s e) (i : ι) (hi : i ≠ s.idx) : x i = e i := by
  obtain ⟨r, -, rfl⟩ := mem_map.1 (mem_filter.1 hx).1
  exact update_of_ne hi _ _

omit [DecidableEq R] in
theorem matchingOrNull_at (s : Step ι R) (e x : Env ι R) (hx : x ∈ matchingOrNull s e) (i : ι) (hi : i ≠ s.idx) :
    x i = e i := by
  rw [matchingOrNull] at hx
  split_ifs at hx with hempty
  · rw [mem_singleton.1 hx]
    exact update_of_ne hi _ _
  · exact matching_at s e x hx i hi

omit [DecidableEq R] in
theorem matchingOrNull_length (s : Step ι R) (e : Env ι R) (h : (matching s e).length ≤ 1) :
    (matchingOrNull s e).length ≤ 1 := by
  rw [matchingOrNull]
  split_ifs with hempty
  · exact le_refl 1
  · exact h

omit [DecidableEq ι] in
/-- extensions of one row that leave an input as it is, and are at most one -/
theorem occurrences_extension (i : ι) (r : R) (e : Env ι R) (l : List (Env ι R)) (hat : ∀ x ∈ l, x i = e i)
    (hlen : l.length ≤ 1) : l.countP (fun x => x i = some r) ≤ if e i = some r then 1 else 0 := by
  split_ifs with he
  · exact le_trans countP_le_length hlen
  · rw [Nat.le_zero, countP_eq_zero]
    intro x hx
    rw [hat x hx]
    simpa using he

/-- **An input joined before.** Where each row joined so far matches at most one row of the new input, no row of an
input joined before occurs more often than it did. -/
theorem count_joinStep_of_old (s : Step ι R) (l : List (Env ι R)) (i : ι) (hi : i ≠ s.idx) (r : R)
    (hsingle : ∀ e ∈ l, (matching s e).length ≤ 1) : occurrences i r (joinStep l s) ≤ occurrences i r l := by
  have hmatching : (l.flatMap (matching s)).countP (fun x => x i = some r) ≤ l.countP fun e => e i = some r :=
    countP_flatMap_le _ _ _ _ fun e he => by
      simpa using occurrences_extension i r e _ (fun x hx => matching_at s e x hx i hi) (hsingle e he)
  have hnull : (l.flatMap (matchingOrNull s)).countP (fun x => x i = some r) ≤ l.countP fun e => e i = some r :=
    countP_flatMap_le _ _ _ _ fun e he => by
      simpa using occurrences_extension i r e _ (fun x hx => matchingOrNull_at s e x hx i hi)
        (matchingOrNull_length s e (hsingle e he))
  have hunmatched : occurrences i r (unmatched s l) = 0 := by
    rw [occurrences, countP_eq_zero]
    intro x hx
    obtain ⟨r', -, rfl⟩ := mem_map.1 hx
    rw [update_of_ne hi]
    simp [blank]
  rw [joinStep]
  cases s.kind with
  | inner => exact hmatching
  | left => exact hnull
  | right =>
    simp only [occurrences_append, hunmatched]
    exact hmatching
  | full =>
    simp only [occurrences_append, hunmatched]
    exact hnull

/-- a row of the new input extends a row joined so far at most once, and only if it matches -/
theorem occurrences_matching (s : Step ι R) (hnodup : s.rows.Nodup) (e : Env ι R) (r : R) :
    (matching s e).countP (fun x => x s.idx = some r) ≤
      if s.on (Function.update e s.idx (some r)) then 1 else 0 := by
  rw [matching, countP_filter, countP_map]
  split_ifs with hon
  · apply countP_le_one hnodup
    intro a _ b _ ha hb
    simp only [comp_apply, update_self, Option.some.injEq, Bool.and_eq_true,
      decide_eq_true_eq] at ha hb
    rw [ha.1, hb.1]
  · rw [Nat.le_zero, countP_eq_zero]
    intro r' _ h
    simp only [comp_apply, update_self, Option.some.injEq, Bool.and_eq_true,
      decide_eq_true_eq] at h
    exact hon (h.1 ▸ h.2)

theorem occurrences_matchingOrNull (s : Step ι R) (hnodup : s.rows.Nodup) (e : Env ι R) (r : R) :
    (matchingOrNull s e).countP (fun x => x s.idx = some r) ≤
      if s.on (Function.update e s.idx (some r)) then 1 else 0 := by
  rw [matchingOrNull]
  split_ifs with hempty hon
  · simp
  · simp
  · simpa [*] using occurrences_matching s hnodup e r
  · simpa [*] using occurrences_matching s hnodup e r

/-- **The new input.** A row that matches at most one of the rows joined so far occurs at most once. -/
theorem count_joinStep_of_new (s : Step ι R) (hnodup : s.rows.Nodup) (l : List (Env ι R)) (r : R)
    (hmatch : l.countP (fun e => s.on (Function.update e s.idx (some r))) ≤ 1) :
    occurrences s.idx r (joinStep l s) ≤ 1 := by
  have hmatching : (l.flatMap (matching s)).countP (fun x => x s.idx = some r) ≤
      l.countP fun e => s.on (Function.update e s.idx (some r)) :=
    countP_flatMap_le _ _ _ _ fun e _ => occurrences_matching s hnodup e r
  have hnull : (l.flatMap (matchingOrNull s)).countP (fun x => x s.idx = some r) ≤
      l.countP fun e => s.on (Function.update e s.idx (some r)) :=
    countP_flatMap_le _ _ _ _ fun e _ => occurrences_matchingOrNull s hnodup e r
  have hunmatched : (unmatched s l).countP (fun x => x s.idx = some r) ≤
      if l.any fun e => s.on (Function.update e s.idx (some r)) then 0 else 1 := by
    rw [unmatched, countP_map, countP_filter]
    split_ifs with hany
    · rw [Nat.le_zero, countP_eq_zero]
      intro r' _ h
      simp only [comp_apply, update_self, Option.some.injEq, Bool.and_eq_true, decide_eq_true_eq,
        Bool.not_eq_true'] at h
      rw [h.1, hany] at h
      exact Bool.noConfusion h.2
    · apply countP_le_one hnodup
      intro a _ b _ ha hb
      simp only [comp_apply, update_self, Option.some.injEq, Bool.and_eq_true,
        decide_eq_true_eq] at ha hb
      rw [ha.1, hb.1]
  have houter : l.countP (fun e => s.on (Function.update e s.idx (some r))) +
      (unmatched s l).countP (fun x => x s.idx = some r) ≤ 1 := by
    split_ifs at hunmatched with hany
    · omega
    · have hzero : l.countP (fun e => s.on (Function.update e s.idx (some r))) = 0 := by
        rw [countP_eq_zero]
        intro e he hon
        exact hany (any_eq_true.2 ⟨e, he, hon⟩)
      omega
  rw [joinStep]
  cases s.kind with
  | inner => exact hmatching.trans hmatch
  | left => exact hnull.trans hmatch
  | right =>
    simp only [occurrences_append]
    exact (Nat.add_le_add_right hmatching _).trans houter
  | full =>
    simp only [occurrences_append]
    exact (Nat.add_le_add_right hnull _).trans houter

/-! ## A tree of joins -/

/-- a new input joined to one that is joined already, by a relation between their rows -/
structure Link (ι R : Type) where
  parent : ι
  child : ι
  kind : Kind
  rel : R → R → Bool

variable (rows : ι → List R)

/-- no null-extended row matches -/
def Link.on (k : Link ι R) (e : Env ι R) : Bool :=
  match e k.parent, e k.child with
  | some a, some b => k.rel a b
  | _, _ => false

def Link.step (k : Link ι R) : Step ι R := ⟨k.child, rows k.child, k.kind, k.on⟩

def linked (root : ι) (links : List (Link ι R)) : List (Env ι R) :=
  join (⟨root, rows root, .inner, fun _ => true⟩ :: links.map (Link.step rows))

/-- the inputs of a tree -/
def inputs (root : ι) (links : List (Link ι R)) : List ι := root :: links.map Link.child

/-- each link joins a new input to one joined before -/
inductive Tree (root : ι) : List (Link ι R) → Prop
  | root : Tree root []
  | attach {links : List (Link ι R)} {k : Link ι R} (tree : Tree root links) (hparent : k.parent ∈ inputs root links)
      (hchild : k.child ∉ inputs root links) : Tree root (links ++ [k])

/-- along the link each row of the one input matches at most one row of the other -/
def Link.Single (k : Link ι R) (i j : ι) : Prop :=
  (i = k.parent ∧ j = k.child ∧ ∀ a ∈ rows i, ∀ b ∈ rows j, ∀ b' ∈ rows j, k.rel a b → k.rel a b' → b = b') ∨
    i = k.child ∧ j = k.parent ∧ ∀ b ∈ rows i, ∀ a ∈ rows j, ∀ a' ∈ rows j, k.rel a b → k.rel a' b → a = a'

/-- some link matches each row of the one input with at most one of the other -/
def SingleStep (links : List (Link ι R)) (i j : ι) : Prop := ∃ k ∈ links, k.Single rows i j

/-- one input is reached from the other by links that match each row at most once -/
def SinglyReaches (links : List (Link ι R)) (i j : ι) : Prop := Relation.ReflTransGen (SingleStep rows links) i j

omit [DecidableEq ι] [DecidableEq R] in
theorem inputs_append (root : ι) (links : List (Link ι R)) (k : Link ι R) :
    inputs root (links ++ [k]) = inputs root links ++ [k.child] := by
  simp [inputs]

omit [DecidableEq R] in
theorem linked_append (root : ι) (links : List (Link ι R)) (k : Link ι R) :
    linked rows root (links ++ [k]) = joinStep (linked rows root links) (k.step rows) := by
  rw [linked, linked, join, join, map_append, ← cons_append, foldl_append]
  rfl

omit [DecidableEq ι] [DecidableEq R] in
theorem Tree.mem_inputs {root : ι} {links : List (Link ι R)} (h : Tree root links) (k : Link ι R) (hk : k ∈ links) :
    k.parent ∈ inputs root links ∧ k.child ∈ inputs root links := by
  induction h with
  | root => simp at hk
  | attach tree hparent hchild ih =>
    rw [inputs_append]
    rcases mem_append.1 hk with hk | hk
    · exact ⟨mem_append_left _ (ih hk).1, mem_append_left _ (ih hk).2⟩
    · rw [mem_singleton] at hk
      subst hk
      exact ⟨mem_append_left _ hparent, mem_append_right _ mem_cons_self⟩

omit [DecidableEq ι] [DecidableEq R] in
theorem Tree.singleStep_mem {root : ι} {links : List (Link ι R)} (h : Tree root links) {i j : ι}
    (hstep : SingleStep rows links i j) : i ∈ inputs root links ∧ j ∈ inputs root links := by
  obtain ⟨k, hk, ⟨rfl, rfl, -⟩ | ⟨rfl, rfl, -⟩⟩ := hstep
  · exact h.mem_inputs k hk
  · exact (h.mem_inputs k hk).symm

/-! ### Reaching through the last link -/

section LastLink

variable {root : ι} {links : List (Link ι R)} {k : Link ι R}

omit [DecidableEq ι] [DecidableEq R] in
/-- a step of the larger tree is one of the smaller, or goes along the last link -/
theorem singleStep_append {i j : ι} (h : SingleStep rows (links ++ [k]) i j) :
    SingleStep rows links i j ∨ k.Single rows i j := by
  obtain ⟨x, hx, hsingle⟩ := h
  rcases mem_append.1 hx with hx | hx
  · exact .inl ⟨x, hx, hsingle⟩
  · rw [mem_singleton] at hx
    exact .inr (hx ▸ hsingle)

omit [DecidableEq R] in
/-- from an old input: an old one is reached in the smaller tree, the new one over its parent -/
theorem reaches_of_old (tree : Tree root links) (hchild : k.child ∉ inputs root links) {m d : ι}
    (hm : m ∈ inputs root links) (h : SinglyReaches rows (links ++ [k]) m d) :
    if d = k.child then SinglyReaches rows links m k.parent ∧ k.Single rows k.parent k.child
    else SinglyReaches rows links m d := by
  induction h with
  | refl =>
    rw [if_neg fun h : m = k.child => hchild (h ▸ hm)]
    exact Relation.ReflTransGen.refl
  | @tail d' d _ hstep ih =>
    rcases singleStep_append rows hstep with hstep | hsingle
    · obtain ⟨hd', hd⟩ := tree.singleStep_mem rows hstep
      rw [if_neg fun h : d' = k.child => hchild (h ▸ hd')] at ih
      rw [if_neg fun h : d = k.child => hchild (h ▸ hd)]
      exact ih.tail hstep
    · by_cases hnew : d = k.child
      · rw [if_pos hnew]
        by_cases hd' : d' = k.child
        · rw [if_pos hd'] at ih
          exact ih
        · rw [if_neg hd'] at ih
          rcases hsingle with ⟨hp, hc, hrel⟩ | ⟨hc, -, -⟩
          · subst hp
            exact ⟨ih, .inl ⟨rfl, rfl, hc ▸ hrel⟩⟩
          · exact absurd hc hd'
      · rw [if_neg hnew]
        rcases hsingle with ⟨-, hc, -⟩ | ⟨hc, hp, -⟩
        · exact absurd hc hnew
        · rw [if_pos hc] at ih
          exact hp ▸ ih.1

omit [DecidableEq ι] [DecidableEq R] in
theorem reaches_of_new (tree : Tree root links) (hparent : k.parent ∈ inputs root links)
    (hchild : k.child ∉ inputs root links) {d : ι} (h : SinglyReaches rows (links ++ [k]) k.child d) :
    d = k.child ∨ k.Single rows k.child k.parent ∧ SinglyReaches rows links k.parent d := by
  induction h with
  | refl => exact .inl rfl
  | @tail d' d _ hstep ih =>
    rcases singleStep_append rows hstep with hstep | hsingle
    · obtain ⟨hd', -⟩ := tree.singleStep_mem rows hstep
      rcases ih with hd'' | ⟨hsingle, hreach⟩
      · exact absurd (hd'' ▸ hd') hchild
      · exact .inr ⟨hsingle, hreach.tail hstep⟩
    · rcases hsingle with ⟨-, hc, -⟩ | ⟨hc, hp, hrel⟩
      · exact .inl hc
      · subst hp
        exact .inr ⟨.inr ⟨rfl, rfl, hc ▸ hrel⟩, Relation.ReflTransGen.refl⟩

end LastLink

/-! ### The rows of a tree -/

omit [DecidableEq R] in
/-- what a step puts in place of an input is a row of the step or what was there -/
theorem joinStep_at (s : Step ι R) (l : List (Env ι R)) (x : Env ι R) (hx : x ∈ joinStep l s) (i : ι) (a : R)
    (ha : x i = some a) : i = s.idx ∧ a ∈ s.rows ∨ ∃ e ∈ l, e i = some a := by
  have hmatching : ∀ e ∈ l, ∀ y ∈ matching s e, y i = some a → i = s.idx ∧ a ∈ s.rows ∨ e i = some a := by
    intro e _ y hy hya
    obtain ⟨r, hr, rfl⟩ := mem_map.1 (mem_filter.1 hy).1
    by_cases hi : i = s.idx
    · subst hi
      rw [update_self, Option.some.injEq] at hya
      exact .inl ⟨rfl, hya ▸ hr⟩
    · rw [update_of_ne hi] at hya
      exact .inr hya
  have hnull : ∀ e ∈ l, ∀ y ∈ matchingOrNull s e, y i = some a → i = s.idx ∧ a ∈ s.rows ∨ e i = some a := by
    intro e he y hy hya
    rw [matchingOrNull] at hy
    split_ifs at hy with hempty
    · rw [mem_singleton] at hy
      subst hy
      by_cases hi : i = s.idx
      · subst hi
        rw [update_self] at hya
        cases hya
      · rw [update_of_ne hi] at hya
        exact .inr hya
    · exact hmatching e he y hy hya
  have hunmatched : x ∈ unmatched s l → i = s.idx ∧ a ∈ s.rows := by
    intro hu
    obtain ⟨r, hr, rfl⟩ := mem_map.1 hu
    by_cases hi : i = s.idx
    · subst hi
      rw [update_self, Option.some.injEq] at ha
      exact ⟨rfl, ha ▸ (mem_filter.1 hr).1⟩
    · rw [update_of_ne hi] at ha
      cases ha
  have hfrom : ∀ f : Env ι R → List (Env ι R),
      (∀ e ∈ l, ∀ y ∈ f e, y i = some a → i = s.idx ∧ a ∈ s.rows ∨ e i = some a) → x ∈ l.flatMap f →
      i = s.idx ∧ a ∈ s.rows ∨ ∃ e ∈ l, e i = some a := by
    intro f hf hmem
    obtain ⟨e, he, hxe⟩ := mem_flatMap.1 hmem
    exact (hf e he x hxe ha).imp id fun h => ⟨e, he, h⟩
  rw [joinStep] at hx
  cases hkind : s.kind with
  | inner =>
    rw [hkind] at hx
    exact hfrom _ hmatching hx
  | left =>
    rw [hkind] at hx
    exact hfrom _ hnull hx
  | right =>
    rw [hkind] at hx
    exact (mem_append.1 hx).elim (hfrom _ hmatching) fun h => .inl (hunmatched h)
  | full =>
    rw [hkind] at hx
    exact (mem_append.1 hx).elim (hfrom _ hnull) fun h => .inl (hunmatched h)

omit [DecidableEq R] in
theorem mem_rows_of_linked {root : ι} {links : List (Link ι R)} (h : Tree root links) (e : Env ι R)
    (he : e ∈ linked rows root links) (i : ι) (a : R) (ha : e i = some a) : a ∈ rows i := by
  induction h generalizing e with
  | root =>
    rcases joinStep_at ⟨root, rows root, .inner, fun _ => true⟩ [blank] e he i a ha with ⟨hi, hmem⟩ | ⟨e', he', ha'⟩
    · exact hi ▸ hmem
    · rw [mem_singleton.1 he'] at ha'
      cases ha'
  | @attach links k tree hparent hchild ih =>
    rw [linked_append] at he
    rcases joinStep_at _ _ e he i a ha with ⟨rfl, hmem⟩ | ⟨e', he', ha'⟩
    · exact hmem
    · exact ih e' he' ha'

omit [DecidableEq R] in
/-- a row joined so far matches at most one row of the new input -/
theorem matching_link_length {k : Link ι R} (hne : k.parent ≠ k.child) (hnodup : (rows k.child).Nodup)
    (hsingle : k.Single rows k.parent k.child) (e : Env ι R) (he : ∀ a, e k.parent = some a → a ∈ rows k.parent) :
    (matching (k.step rows) e).length ≤ 1 := by
  rw [matching, ← countP_eq_length_filter, countP_map]
  apply countP_le_one hnodup
  intro b hb b' hb' hon hon'
  simp only [Link.step, Link.on, comp_apply, update_self, update_of_ne hne] at hon hon'
  cases hparent : e k.parent with
  | none => simp [hparent] at hon
  | some a =>
    rw [hparent] at hon hon'
    rcases hsingle with ⟨-, -, hrel⟩ | ⟨heq, -, -⟩
    · exact hrel a (he a hparent) b hb b' hb' hon hon'
    · exact absurd heq hne

/-- the rows joined so far that a row of the new input matches are at most one -/
theorem countP_on_le_one {k : Link ι R} (hne : k.parent ≠ k.child) (hsingle : k.Single rows k.child k.parent) {r : R}
    (hr : r ∈ rows k.child) (l : List (Env ι R)) (hl : ∀ e ∈ l, ∀ a, e k.parent = some a → a ∈ rows k.parent)
    (hcount : ∀ a, occurrences k.parent a l ≤ 1) :
    l.countP (fun e => (k.step rows).on (Function.update e (k.step rows).idx (some r))) ≤ 1 := by
  have hon : ∀ e, (k.step rows).on (Function.update e (k.step rows).idx (some r)) = true →
      ∃ a, e k.parent = some a ∧ k.rel a r = true := by
    intro e h
    simp only [Link.step, Link.on, update_self, update_of_ne hne] at h
    cases hparent : e k.parent with
    | none => simp [hparent] at h
    | some a =>
      rw [hparent] at h
      exact ⟨a, rfl, h⟩
  have hrel : ∀ a ∈ rows k.parent, ∀ a' ∈ rows k.parent, k.rel a r → k.rel a' r → a = a' := by
    rcases hsingle with ⟨heq, -, -⟩ | ⟨-, -, hrel⟩
    · exact absurd heq.symm hne
    · exact hrel r hr
  by_cases hsome : ∃ e ∈ l, (k.step rows).on (Function.update e (k.step rows).idx (some r)) = true
  · obtain ⟨e, he, hmatch⟩ := hsome
    obtain ⟨a, ha, hra⟩ := hon e hmatch
    apply le_trans _ (hcount a)
    apply countP_mono_left
    intro e' he' hmatch'
    obtain ⟨a', ha', hra'⟩ := hon e' hmatch'
    rw [ha', hrel a' (hl e' he' a' ha') a (hl e he a ha) hra' hra]
    simp
  · push Not at hsome
    have hzero : l.countP (fun e => (k.step rows).on (Function.update e (k.step rows).idx (some r))) = 0 := by
      rw [countP_eq_zero]
      exact hsome
    omega

/-- **Each row at most once.** Where every input is reached from one of them by links that match each row at most once,
each row of that one occurs at most once among the joined rows. -/
theorem count_le_one {root : ι} {links : List (Link ι R)} (tree : Tree root links) (hnodup : ∀ i, (rows i).Nodup)
    (m : ι) (hm : m ∈ inputs root links) (hreach : ∀ d ∈ inputs root links, SinglyReaches rows links m d) (r : R) :
    occurrences m r (linked rows root links) ≤ 1 := by
  induction tree generalizing m r with
  | root =>
    rw [inputs, map_nil, mem_singleton] at hm
    subst hm
    exact count_joinStep_of_new ⟨m, rows m, .inner, fun _ => true⟩ (hnodup m) [blank] r (by simp)
  | @attach links k tree hparent hchild ih =>
    have hne : k.parent ≠ k.child := fun h => hchild (h ▸ hparent)
    have hrows := mem_rows_of_linked rows tree
    rw [inputs_append] at hm hreach
    rw [linked_append]
    rcases mem_append.1 hm with hm | hm
    · -- the input is an old one: each of its rows stays as often as it was
      have hmne : m ≠ k.child := fun h => hchild (h ▸ hm)
      have hold : ∀ d ∈ inputs root links, SinglyReaches rows links m d := by
        intro d hd
        have h := reaches_of_old rows tree hchild hm (hreach d (mem_append_left _ hd))
        rwa [if_neg fun h : d = k.child => hchild (h ▸ hd)] at h
      have hlast := reaches_of_old rows tree hchild hm (hreach k.child (mem_append_right _ mem_cons_self))
      rw [if_pos rfl] at hlast
      apply le_trans (count_joinStep_of_old (k.step rows) _ m hmne r _) (ih m hm hold r)
      intro e he
      exact matching_link_length rows hne (hnodup k.child) hlast.2 e (hrows e he k.parent)
    · -- the input is the new one: its rows match different rows of the parent, each of which occurs at most once
      rw [mem_singleton] at hm
      subst hm
      by_cases hr : r ∈ rows k.child
      · have hback := fun d hd =>
          (reaches_of_new rows tree hparent hchild (hreach d (mem_append_left _ hd))).resolve_left
            fun h : d = k.child => hchild (h ▸ hd)
        apply count_joinStep_of_new (k.step rows) (hnodup k.child)
        apply countP_on_le_one rows hne (hback k.parent hparent).1 hr _ fun e he a => hrows e he k.parent a
        exact ih k.parent hparent fun d hd => (hback d hd).2
      · have hzero : occurrences k.child r (joinStep (linked rows root links) (k.step rows)) = 0 := by
          rw [occurrences, countP_eq_zero]
          intro x hx hxr
          rw [← linked_append] at hx
          exact hr (mem_rows_of_linked rows (tree.attach hparent hchild) x hx k.child r (of_decide_eq_true hxr))
        omega

end Langbridge.Core.Joins
