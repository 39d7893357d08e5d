/-
The unmatched rows of a join: what is joined already and matches no row of the new input, and the rows of the new input
that match nothing joined so far.

Main results: `keepsJoined_iff`, `keepsNew_iff`, `mem_joinStep_of_matching`.
-/
import Langbridge.Core.Joins

namespace Langbridge.Core.Joins

open List

variable {ι R : Type} [DecidableEq ι]

/-- a row joined already that matches no row of the new input is kept, null-extended -/
def KeepsJoined (l : List (Env ι R)) (s : Step ι R) : Prop :=
  ∀ e ∈ l, (∀ r ∈ s.rows, s.on (Function.update e s.idx (some r)) = false) →
    Function.update e s.idx none ∈ joinStep l s

/-- a row of the new input that matches nothing joined already is kept, null-extended -/
def KeepsNew (l : List (Env ι R)) (s : Step ι R) : Prop :=
  ∀ r ∈ s.rows, (∀ e ∈ l, s.on (Function.update e s.idx (some r)) = false) →
    Function.update blank s.idx (some r) ∈ joinStep l s

/-- the kinds that keep what is joined already -/
def Kind.keepsJoined (k : Kind) : Prop := k = .left ∨ k = .full

/-- the kinds that keep the new input -/
def Kind.keepsNew (k : Kind) : Prop := k = .right ∨ k = .full

variable {l : List (Env ι R)} {s : Step ι R}

theorem mem_joinStep_of_matching {e x : Env ι R} (he : e ∈ l) (hx : x ∈ matching s e) : x ∈ joinStep l s := by
  have hmatching : x ∈ l.flatMap (matching s) := mem_flatMap.2 ⟨e, he, hx⟩
  have hornull : x ∈ l.flatMap (matchingOrNull s) := by
    refine mem_flatMap.2 ⟨e, he, ?_⟩
    rw [matchingOrNull, if_neg]
    · exact hx
    · rw [List.isEmpty_iff]
      exact ne_nil_of_mem hx
  rw [joinStep]
  cases s.kind with
  | inner => exact hmatching
  | left => exact hornull
  | right => exact mem_append_left _ hmatching
  | full => exact mem_append_left _ hornull

theorem matching_eq_nil {e : Env ι R}
    (h : ∀ r ∈ s.rows, s.on (Function.update e s.idx (some r)) = false) : matching s e = [] := by
  rw [matching, filter_eq_nil_iff]
  intro x hx
  obtain ⟨r, hr, rfl⟩ := mem_map.1 hx
  rw [h r hr]
  exact Bool.false_ne_true

theorem keepsJoined_of_kind (h : s.kind.keepsJoined) : KeepsJoined l s := by
  intro e he hnone
  have hornull : Function.update e s.idx none ∈ l.flatMap (matchingOrNull s) := by
    refine mem_flatMap.2 ⟨e, he, ?_⟩
    rw [matchingOrNull, matching_eq_nil hnone]
    exact mem_singleton_self _
  rcases h with h | h
  · rw [joinStep, h]
    exact hornull
  · rw [joinStep, h]
    exact mem_append_left _ hornull

theorem keepsNew_of_kind (h : s.kind.keepsNew) : KeepsNew l s := by
  intro r hr hnone
  have hunmatched : Function.update blank s.idx (some r) ∈ unmatched s l := by
    refine mem_map_of_mem (mem_filter.2 ⟨hr, ?_⟩)
    rw [Bool.not_eq_true', any_eq_false]
    exact fun e he => Bool.eq_false_iff.1 (hnone e he)
  rcases h with h | h
  · rw [joinStep, h]
    exact mem_append_right _ hunmatched
  · rw [joinStep, h]
    exact mem_append_right _ hunmatched

/-- **What is joined already** is kept by its kind alone: another kind loses a row when the new input has none. -/
theorem keepsJoined_iff (hl : l ≠ []) (hrows : s.rows = []) : KeepsJoined l s ↔ s.kind.keepsJoined := by
  refine ⟨fun h => ?_, keepsJoined_of_kind⟩
  obtain ⟨e, he⟩ := exists_mem_of_ne_nil l hl
  have hmem := h e he (by rw [hrows]; exact fun r hr => (not_mem_nil hr).elim)
  have hmatching : ∀ e : Env ι R, matching s e = [] := fun e =>
    matching_eq_nil (by rw [hrows]; exact fun r hr => (not_mem_nil hr).elim)
  have hunmatched : unmatched s l = [] := by rw [unmatched, hrows]; rfl
  rw [joinStep] at hmem
  cases hkind : s.kind with
  | left => exact .inl rfl
  | full => exact .inr rfl
  | inner => simp [hkind, hmatching] at hmem
  | right => simp [hkind, hmatching, hunmatched] at hmem

/-- **The new input** is kept by its kind alone: another kind loses its rows when nothing is joined already. -/
theorem keepsNew_iff (hrows : s.rows ≠ []) : KeepsNew [] s ↔ s.kind.keepsNew := by
  refine ⟨fun h => ?_, keepsNew_of_kind⟩
  obtain ⟨r, hr⟩ := exists_mem_of_ne_nil s.rows hrows
  have hmem := h r hr fun e he => (not_mem_nil he).elim
  rw [joinStep] at hmem
  cases hkind : s.kind with
  | right => exact .inl rfl
  | full => exact .inr rfl
  | inner => simp [hkind] at hmem
  | left => simp [hkind] at hmem

/-- nothing is joined from inputs without rows -/
theorem foldl_joinStep_nil {steps : List (Step ι R)} (h : ∀ s ∈ steps, s.rows = []) :
    steps.foldl joinStep ([] : List (Env ι R)) = [] := by
  induction steps with
  | nil => rfl
  | cons s steps ih =>
    have hs : joinStep ([] : List (Env ι R)) s = [] := by
      have hrows := h s mem_cons_self
      rw [joinStep]
      cases s.kind <;> simp [unmatched, hrows]
    rw [foldl_cons, hs, ih fun s' hs' => h s' (mem_cons_of_mem s hs')]

end Langbridge.Core.Joins
