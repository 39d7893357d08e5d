/-
Texts whose gaps are written with one filler. Some elements are marks; what stands between two of them, before the first
and behind the last is a gap. A map that keeps the marks and writes each gap as so many fillers, by a width of the gap,
gives two texts the same image exactly if they have the same marks and gaps of the same widths.
-/
import Mathlib.Tactic

namespace Langbridge.Core.Gaps

open List

variable {α : Type}

/-- a text is a gap, or a gap and a mark before a text -/
theorem gap_or_mark (p : α → Bool) (x : List α) : (∀ c ∈ x, p c = false) ∨
    ∃ s c t, x = s ++ c :: t ∧ (∀ d ∈ s, p d = false) ∧ p c = true := by
  induction x with
  | nil => exact .inl (by simp)
  | cons c x ih =>
    cases hc : p c with
    | true => exact .inr ⟨[], c, x, rfl, by simp, hc⟩
    | false =>
      rcases ih with hgap | ⟨s, d, t, rfl, hs, hd⟩
      · exact .inl (forall_mem_cons.2 ⟨hc, hgap⟩)
      · exact .inr ⟨c :: s, d, t, rfl, forall_mem_cons.2 ⟨hc, hs⟩, hd⟩

/-- the map keeps the marks and writes gaps as fillers -/
structure Filled (p : α → Bool) (filler : α) (width : List α → ℕ) (f : List α → List α) : Prop where
  filler_gap : p filler = false
  gap : ∀ s, (∀ c ∈ s, p c = false) → f s = List.replicate (width s) filler
  mark : ∀ s c t, (∀ d ∈ s, p d = false) → p c = true → f (s ++ c :: t) = f s ++ c :: f t

def SameOutline (p : α → Bool) (width : List α → ℕ) (x y : List α) : Prop :=
  x.filter p = y.filter p ∧ (x.splitOnP p).map width = (y.splitOnP p).map width

instance [DecidableEq α] (p : α → Bool) (width : List α → ℕ) (x y : List α) : Decidable (SameOutline p width x y) :=
  inferInstanceAs (Decidable (_ ∧ _))

variable {p : α → Bool} {filler : α} {width : List α → ℕ} {f : List α → List α}

theorem filter_gap {s : List α} (hs : ∀ c ∈ s, p c = false) : s.filter p = [] :=
  filter_eq_nil_iff.2 fun c hc => by simp [hs c hc]

theorem filter_mark {s t : List α} {c : α} (hs : ∀ d ∈ s, p d = false) (hc : p c = true) :
    (s ++ c :: t).filter p = c :: t.filter p := by
  rw [filter_append, filter_gap hs, nil_append, filter_cons_of_pos hc]

theorem splitOnP_mark {s t : List α} {c : α} (hs : ∀ d ∈ s, p d = false) (hc : p c = true) :
    (s ++ c :: t).splitOnP p = s :: t.splitOnP p :=
  splitOnP_append_cons_of_forall_mem hs c hc t

/-- fillers before a mark, counted -/
theorem replicate_mark {m n : ℕ} {c d : α} {x y : List α} (hfiller : p filler = false) (hc : p c = true)
    (hd : p d = true) : List.replicate m filler ++ c :: x = List.replicate n filler ++ d :: y ↔
      m = n ∧ c = d ∧ x = y := by
  apply Iff.intro
  · intro h
    have hne : ∀ e, p e = true → e ≠ filler := fun e he heq => Bool.noConfusion (hfiller.symm.trans (heq ▸ he))
    induction m generalizing n with
    | zero =>
      cases n with
      | zero => exact ⟨rfl, (List.cons.inj h).1, (List.cons.inj h).2⟩
      | succ n => exact absurd (List.cons.inj h).1 (hne c hc)
    | succ m ih =>
      cases n with
      | zero => exact absurd (List.cons.inj h).1.symm (hne d hd)
      | succ n =>
        obtain ⟨rfl, hrest⟩ := ih (List.cons.inj h).2
        exact ⟨rfl, hrest⟩
  · rintro ⟨rfl, rfl, rfl⟩
    rfl

/-- fillers alone are no text with a mark -/
theorem replicate_ne_mark {m n : ℕ} {c : α} {x : List α} (hfiller : p filler = false) (hc : p c = true) :
    List.replicate m filler ≠ List.replicate n filler ++ c :: x := by
  intro h
  have hmem : c ∈ List.replicate m filler := h ▸ mem_append_right _ mem_cons_self
  rw [eq_of_mem_replicate hmem, hfiller] at hc
  exact Bool.noConfusion hc

/-- **The images of two texts** are equal exactly if the texts have one outline. -/
theorem Filled.eq_iff (h : Filled p filler width f) (x y : List α) : f x = f y ↔ SameOutline p width x y := by
  rw [SameOutline]
  induction hn : x.length using Nat.strong_induction_on generalizing x y with
  | h n ih =>
    subst hn
    rcases gap_or_mark p x with hx | ⟨s, c, t, rfl, hs, hc⟩
    · rcases gap_or_mark p y with hy | ⟨s', d, t', rfl, hs', hd⟩
      · rw [h.gap x hx, h.gap y hy, filter_gap hx, filter_gap hy, splitOnP_eq_singleton hx,
          splitOnP_eq_singleton hy, replicate_left_inj]
        simp
      · rw [h.gap x hx, h.mark s' d t' hs' hd, h.gap s' hs', filter_gap hx, filter_mark hs' hd]
        exact iff_of_false (replicate_ne_mark h.filler_gap hd) fun hboth => cons_ne_nil _ _ hboth.1.symm
    · rcases gap_or_mark p y with hy | ⟨s', d, t', rfl, hs', hd⟩
      · rw [h.mark s c t hs hc, h.gap s hs, h.gap y hy, filter_gap hy, filter_mark hs hc]
        exact iff_of_false (replicate_ne_mark h.filler_gap hc).symm fun hboth => cons_ne_nil _ _ hboth.1
      · have hlt : t.length < (s ++ c :: t).length := by
          rw [length_append, length_cons]
          omega
        rw [h.mark s c t hs hc, h.mark s' d t' hs' hd, h.gap s hs, h.gap s' hs', filter_mark hs hc, filter_mark hs' hd,
          splitOnP_mark hs hc, splitOnP_mark hs' hd, replicate_mark h.filler_gap hc hd, ih t.length hlt t t' rfl,
          map_cons, map_cons, List.cons.injEq, List.cons.injEq]
        tauto

end Langbridge.Core.Gaps
