/-
Rankings by a value, and the cosine of vectors of an inner product space. Values that order things alike have the same
rankings; lengths of vectors matter to inner products, so inner products with lengths taken out in different measures
order vectors by their cosine only where two vectors point in opposite directions.

Main results: `rankings_iff`, `exists_inner_eq`, `order_iff`.
-/
import Mathlib.Analysis.InnerProductSpace.Basic
import Mathlib.Tactic

namespace Langbridge.Core

open List

/-! ## Rankings -/

section Ranking

variable {ι α : Type} [LinearOrder α]

/-- the `k` best of some things, the best first; ties in any order -/
structure IsRanking (value : ι → α) (stored : List ι) (k : ℕ) (ids : List ι) : Prop where
  sub : ∀ i ∈ ids, i ∈ stored
  nodup : ids.Nodup
  length : ids.length = min k stored.length
  sorted : ids.Pairwise fun i j => value j ≤ value i
  best : ∀ i ∈ stored, i ∉ ids → ∀ j ∈ ids, value i ≤ value j

theorem IsRanking.congr {f g : ι → α} {stored ids : List ι} {k : ℕ}
    (h : ∀ i ∈ stored, ∀ j ∈ stored, f i ≤ f j ↔ g i ≤ g j) (hf : IsRanking f stored k ids) :
    IsRanking g stored k ids :=
  { sub := hf.sub
    nodup := hf.nodup
    length := hf.length
    sorted := hf.sorted.imp_of_mem fun hi hj hle => (h _ (hf.sub _ hj) _ (hf.sub _ hi)).1 hle
    best := fun i hi hnot j hj => (h i hi j (hf.sub j hj)).1 (hf.best i hi hnot j hj) }

/-- a ranking of all with the better of two things first -/
theorem exists_ranking [DecidableEq ι] (f : ι → α) {stored : List ι} (hstored : stored.Nodup) {i j : ι}
    (hi : i ∈ stored) (hj : j ∈ stored) (hne : i ≠ j) (h : f j ≤ f i) :
    ∃ ids, IsRanking f stored stored.length ids ∧ [i, j].Sublist ids := by
  set le : ι → ι → Bool := fun a b => decide (f b ≤ f a) with hle
  have htrans : ∀ a b c, le a b = true → le b c = true → le a c = true := by
    intro a b c hab hbc
    exact decide_eq_true ((of_decide_eq_true hbc).trans (of_decide_eq_true hab))
  have htotal : ∀ a b, (le a b || le b a) = true := by
    intro a b
    rw [Bool.or_eq_true]
    exact (le_total (f b) (f a)).imp decide_eq_true decide_eq_true
  have hperm : (i :: stored.erase i).Perm stored := (perm_cons_erase hi).symm
  have hsort : ((i :: stored.erase i).mergeSort le).Perm stored := (mergeSort_perm _ _).trans hperm
  refine ⟨(i :: stored.erase i).mergeSort le, ⟨?_, ?_, ?_, ?_, ?_⟩, ?_⟩
  · exact fun a ha => hsort.mem_iff.1 ha
  · exact hsort.nodup_iff.2 hstored
  · rw [hsort.length_eq, min_self]
  · exact (pairwise_mergeSort htrans htotal _).imp of_decide_eq_true
  · exact fun a ha hnot => absurd (hsort.mem_iff.2 ha) hnot
  · refine pair_sublist_mergeSort htrans htotal (decide_eq_true h) ?_
    exact Sublist.cons_cons i (singleton_sublist.2 ((mem_erase_of_ne hne.symm).2 hj))

/-- **Values with the same rankings** order things alike. -/
theorem rankings_iff [DecidableEq ι] (f g : ι → α) {stored : List ι} (hstored : stored.Nodup) :
    (∀ k, 0 < k → ∀ ids, IsRanking f stored k ids ↔ IsRanking g stored k ids) ↔
      ∀ i ∈ stored, ∀ j ∈ stored, f i ≤ f j ↔ g i ≤ g j := by
  constructor
  · intro h
    have horder : ∀ {f g : ι → α}, (∀ k, 0 < k → ∀ ids, IsRanking f stored k ids → IsRanking g stored k ids) →
        ∀ i ∈ stored, ∀ j ∈ stored, f i ≤ f j → g i ≤ g j := by
      intro f g h i hi j hj hle
      by_cases hij : j = i
      · rw [hij]
      · obtain ⟨ids, hids, hsub⟩ := exists_ranking f hstored hj hi hij hle
        have hg := h _ (length_pos_of_mem hi) ids hids
        have hpair : [j, i].Pairwise fun a b => g b ≤ g a := hg.sorted.sublist hsub
        exact rel_of_pairwise_cons hpair mem_cons_self
    exact fun i hi j hj => ⟨horder (fun k hk ids => (h k hk ids).1) i hi j hj,
      horder (fun k hk ids => (h k hk ids).2) i hi j hj⟩
  · exact fun h k _ ids => ⟨fun hf => hf.congr h, fun hg => hg.congr fun i hi j hj => (h i hi j hj).symm⟩

end Ranking

/-! ## Cosines -/

section Cosine

variable {E : Type} [NormedAddCommGroup E] [InnerProductSpace ℝ E]

/-- the cosine of two vectors, zero if one of them is -/
noncomputable def cosine (x q : E) : ℝ := inner ℝ x q / (‖x‖ * ‖q‖)

/-- **Given products** with two vectors of which the second is no multiple of the first -/
theorem exists_inner_eq {u v : E} (hu : u ≠ 0) (hv : ∀ k : ℝ, v ≠ k • u) (a b : ℝ) :
    ∃ q : E, inner ℝ u q = a ∧ inner ℝ v q = b := by
  have huu : inner ℝ u u ≠ 0 := mt inner_self_eq_zero.1 hu
  -- the part of the second vector that is orthogonal to the first
  set w : E := v - (inner ℝ v u / inner ℝ u u) • u with hw
  have hww : inner ℝ w w ≠ 0 := mt inner_self_eq_zero.1 (sub_ne_zero.2 (hv _))
  have hwu : inner ℝ w u = 0 := by
    rw [hw, inner_sub_left, real_inner_smul_left]
    field_simp
    ring
  have huw : inner ℝ u w = 0 := by rw [real_inner_comm, hwu]
  have hvw : inner ℝ v w = inner ℝ w w := by
    have hv' : v = w + (inner ℝ v u / inner ℝ u u) • u := by rw [hw, sub_add_cancel]
    calc inner ℝ v w = inner ℝ (w + (inner ℝ v u / inner ℝ u u) • u) w := by rw [← hv']
      _ = inner ℝ w w := by rw [inner_add_left, real_inner_smul_left, huw, mul_zero, add_zero]
  refine ⟨(a / inner ℝ u u) • u + ((b - a / inner ℝ u u * inner ℝ v u) / inner ℝ w w) • w, ?_, ?_⟩
  · rw [inner_add_right, real_inner_smul_right, real_inner_smul_right, huw, mul_zero, add_zero,
      div_mul_cancel₀ a huu]
  · rw [inner_add_right, real_inner_smul_right, real_inner_smul_right, hvw, div_mul_cancel₀ _ hww]
    ring

theorem cosine_smul {u : E} {k : ℝ} (hk : 0 < k) (q : E) : cosine (k • u) q = cosine u q := by
  rw [cosine, cosine, real_inner_smul_left, norm_smul, Real.norm_of_nonneg hk.le, mul_assoc,
    mul_div_mul_left _ _ hk.ne']

theorem cosine_neg (u q : E) : cosine (-u) q = -cosine u q := by
  rw [cosine, cosine, inner_neg_left, norm_neg, neg_div]

theorem cosine_self {u : E} (hu : u ≠ 0) : cosine u u = 1 := by
  have hnorm : ‖u‖ ≠ 0 := norm_ne_zero_iff.2 hu
  rw [cosine, real_inner_self_eq_norm_mul_norm, div_self (mul_ne_zero hnorm hnorm)]

/-- a multiple of a vector points in its direction or in the opposite one -/
theorem sameRay_of_eq_smul {u v : E} (hv : v ≠ 0) {k : ℝ} (h : v = k • u) :
    (∃ c : ℝ, 0 < c ∧ v = c • u) ∨ ∃ c : ℝ, 0 < c ∧ v = c • -u := by
  rcases lt_trichotomy k 0 with hk | rfl | hk
  · exact .inr ⟨-k, neg_pos.2 hk, by rw [neg_smul, smul_neg, neg_neg, h]⟩
  · exact absurd (by rw [h, zero_smul]) hv
  · exact .inl ⟨k, hk, h⟩

/-- **Scaled cosines** are ordered as the cosines are, for all vectors, exactly if the scales agree or the vectors point
in opposite directions. -/
theorem order_iff {u v : E} (hu : u ≠ 0) (hv : v ≠ 0) {r s : ℝ} (hr : 0 < r) (hs : 0 < s) :
    (∀ q : E, (r * cosine u q ≤ s * cosine v q ↔ cosine u q ≤ cosine v q) ∧
      (s * cosine v q ≤ r * cosine u q ↔ cosine v q ≤ cosine u q)) ↔ r = s ∨ ∃ c : ℝ, 0 < c ∧ v = c • -u := by
  constructor
  · intro h
    by_cases hmult : ∃ k : ℝ, v = k • u
    · obtain ⟨k, hk⟩ := hmult
      rcases sameRay_of_eq_smul hv hk with ⟨c, hc, rfl⟩ | hopposite
      · -- vectors of one direction have one cosine, so their scales are compared
        have hq := h u
        rw [cosine_smul hc, cosine_self hu, mul_one, mul_one] at hq
        exact .inl (le_antisymm (hq.1.2 le_rfl) (hq.2.2 le_rfl))
      · exact .inr hopposite
    · push Not at hmult
      left
      by_contra hne
      -- a vector whose products with both lie between the scales
      obtain ⟨q, huq, hvq⟩ := exists_inner_eq hu hmult (2 * s * ‖u‖) ((r + s) * ‖v‖)
      have hq : q ≠ 0 := by
        rintro rfl
        rw [inner_zero_right] at huq
        have hpos : 0 < 2 * s * ‖u‖ := by positivity
        exact hpos.ne huq
      have hnq : 0 < ‖q‖ := norm_pos_iff.2 hq
      have hcu : cosine u q = 2 * s / ‖q‖ := by
        rw [cosine, huq]
        field_simp
      have hcv : cosine v q = (r + s) / ‖q‖ := by
        rw [cosine, hvq]
        field_simp
      have hord := (h q).1
      rw [hcu, hcv, div_le_div_iff_of_pos_right hnq, mul_div_assoc', mul_div_assoc', div_le_div_iff_of_pos_right hnq]
        at hord
      rcases le_total r s with hle | hle
      · exact hne (le_antisymm hle (by linarith [hord.1 (by nlinarith)]))
      · exact hne (le_antisymm (by nlinarith [hord.2 (by linarith)]) hle)
  · rintro (rfl | ⟨c, hc, rfl⟩) q
    · exact ⟨mul_le_mul_iff_right₀ hr, mul_le_mul_iff_right₀ hr⟩
    · rw [cosine_smul hc, cosine_neg]
      constructor
      · constructor <;> intro hle <;> nlinarith
      · constructor <;> intro hle <;> nlinarith

end Cosine

end Langbridge.Core
