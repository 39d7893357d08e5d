/-
Listings of a table: its rows in the order of their last change, the latest first, cut at a limit.

`Recency` is such an order, in which rows of one time stand as the database likes. A row is cut off when as many others
are newer as the listing has places (`Recency.not_mem_first`).
-/
import Mathlib.Data.List.Basic
import Mathlib.Data.Nat.Basic

namespace Langbridge.Core

open List

variable {R : Type}

/-- an order of rows by the time of their last change, descending -/
structure Recency (changed : R → ℕ) where
  order : List R → List R
  perm : ∀ rows, (order rows).Perm rows
  sorted : ∀ rows, (order rows).Pairwise fun a b => changed b ≤ changed a

def Recency.stable (changed : R → ℕ) : Recency changed where
  order rows := rows.mergeSort fun a b => changed b ≤ changed a
  perm rows := mergeSort_perm rows _
  sorted rows := (pairwise_mergeSort (fun a b c hab hbc => by simp only [decide_eq_true_eq] at *; omega)
    (fun a b => by simp only [Bool.or_eq_true, decide_eq_true_eq]; omega) rows).imp fun h => of_decide_eq_true h

namespace Recency

variable {changed : R → ℕ} (r : Recency changed)

def first (limit : ℕ) (rows : List R) : List R := (r.order rows).take (max 1 limit)

theorem mem_of_mem_first {limit : ℕ} {rows : List R} {a : R} (h : a ∈ r.first limit rows) : a ∈ rows :=
  (r.perm rows).mem_iff.1 (mem_of_mem_take h)

/-- A row is not listed when as many rows as the listing has places have changed after it. -/
theorem not_mem_first {limit : ℕ} {rows : List R} {a : R} (hlimit : 1 ≤ limit)
    (h : limit ≤ rows.countP fun b => changed a < changed b) : a ∉ r.first limit rows := by
  intro ha
  rw [first, Nat.max_eq_right hlimit] at ha
  have hsorted := r.sorted rows
  rw [← take_append_drop limit (r.order rows), pairwise_append] at hsorted
  have hdrop : ((r.order rows).drop limit).countP (fun b => changed a < changed b) = 0 :=
    countP_eq_zero.2 fun b hb => by
      have hle : changed b ≤ changed a := hsorted.2.2 a ha b hb
      simpa using hle
  have htake : ((r.order rows).take limit).countP (fun b => changed a < changed b) < limit :=
    lt_of_lt_of_le (lt_of_le_of_ne countP_le_length fun hall => by simpa using countP_eq_length.1 hall a ha)
      (length_take_le _ _)
  rw [← (r.perm rows).countP_eq, ← take_append_drop limit (r.order rows), countP_append, hdrop] at h
  omega

end Recency

end Langbridge.Core
