/-
Names made different by numbers: each name of a list is the first of its variants that the names before it have left.

Main results: `names_nodup`, `next_eq_iff`.
-/
import Mathlib.Tactic

namespace Langbridge.Core.Numbering

open List

variable {α β : Type} [DecidableEq α] (variant : β → ℕ → α)

/-- the first number from `k` on, among the next ones, whose variant is not used -/
def firstFree (b : β) (used : List α) : ℕ → ℕ → ℕ
  | 0, k => k
  | fuel + 1, k => if variant b k ∈ used then firstFree b used fuel (k + 1) else k

def next (used : List α) (b : β) : α := variant b (firstFree variant b used used.length 0)

/-- the names of a list, one after another -/
def names (used : List α) : List β → List α
  | [] => []
  | b :: bs => next variant used b :: names (used ++ [next variant used b]) bs

variable {variant}

/-- the variants before the number are used -/
theorem mem_of_lt_firstFree (b : β) (used : List α) (fuel k j : ℕ) (hk : k ≤ j)
    (hj : j < firstFree variant b used fuel k) : variant b j ∈ used := by
  induction fuel generalizing k with
  | zero =>
    rw [firstFree] at hj
    omega
  | succ fuel ih =>
    rw [firstFree] at hj
    split_ifs at hj with hmem
    · rcases Nat.eq_or_lt_of_le hk with rfl | hlt
      · exact hmem
      · exact ih (k + 1) hlt hj
    · omega

theorem firstFree_stops (b : β) (used : List α) (fuel k : ℕ) :
    variant b (firstFree variant b used fuel k) ∉ used ∨ firstFree variant b used fuel k = k + fuel := by
  induction fuel generalizing k with
  | zero => exact .inr rfl
  | succ fuel ih =>
    rw [firstFree]
    split_ifs with hmem
    · rcases ih (k + 1) with hfree | hend
      · exact .inl hfree
      · exact .inr (by omega)
    · exact .inl hmem

/-- among one more variants than there are used names, one is free -/
theorem next_not_mem (hvariant : ∀ b, Function.Injective (variant b)) (used : List α) (b : β) :
    next variant used b ∉ used := by
  rcases @firstFree_stops _ _ _ variant b used used.length 0 with hfree | hend
  · exact hfree
  · intro hmem
    rw [next, hend, Nat.zero_add] at hmem
    have hall : ∀ j ∈ List.range (used.length + 1), variant b j ∈ used := by
      intro j hj
      rw [mem_range, Nat.lt_succ_iff_lt_or_eq] at hj
      rcases hj with hlt | rfl
      · exact mem_of_lt_firstFree b used used.length 0 j (Nat.zero_le j) (by rw [hend, Nat.zero_add]; exact hlt)
      · exact hmem
    have hnodup : ((List.range (used.length + 1)).map (variant b)).Nodup :=
      nodup_range.map (hvariant b)
    have hsub : (List.range (used.length + 1)).map (variant b) ⊆ used := by
      intro x hx
      obtain ⟨j, hj, rfl⟩ := mem_map.1 hx
      exact hall j hj
    have hlength := (hnodup.subperm hsub).length_le
    rw [length_map, length_range] at hlength
    omega

/-- **Plain names.** A name is the plain variant if and only if no name before it is. -/
theorem next_eq_iff (hvariant : ∀ b, Function.Injective (variant b)) (used : List α) (b : β) :
    next variant used b = variant b 0 ↔ variant b 0 ∉ used := by
  constructor
  · intro h
    rw [← h]
    exact next_not_mem hvariant used b
  · intro h
    rw [next]
    cases used with
    | nil => rfl
    | cons u used => rw [length_cons, firstFree, if_neg h]

theorem names_append (used : List α) (bs cs : List β) :
    names variant used (bs ++ cs) = names variant used bs ++ names variant (used ++ names variant used bs) cs := by
  induction bs generalizing used with
  | nil => rw [nil_append, names, nil_append, append_nil]
  | cons b bs ih =>
    rw [cons_append, names, names, ih, cons_append, append_assoc, singleton_append]

theorem not_mem_used (hvariant : ∀ b, Function.Injective (variant b)) (used : List α) (bs : List β) :
    ∀ x ∈ names variant used bs, x ∉ used := by
  induction bs generalizing used with
  | nil => exact fun x hx => (not_mem_nil hx).elim
  | cons b bs ih =>
    intro x hx
    rcases mem_cons.1 hx with rfl | hx
    · exact next_not_mem hvariant used b
    · exact fun hused => ih _ x hx (mem_append_left _ hused)

/-- **Different names.** The names of a list are pairwise different. -/
theorem names_nodup (hvariant : ∀ b, Function.Injective (variant b)) (used : List α) (bs : List β) :
    (names variant used bs).Nodup := by
  induction bs generalizing used with
  | nil => exact nodup_nil
  | cons b bs ih =>
    rw [names, nodup_cons]
    exact ⟨fun hmem => not_mem_used hvariant _ bs _ hmem (mem_append_right _ (mem_singleton_self _)), ih _⟩

end Langbridge.Core.Numbering
