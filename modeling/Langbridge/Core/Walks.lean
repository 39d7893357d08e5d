/-
Reading a list page by page where only some elements are kept, and the next page is found from the ones kept: after the
last one kept (`lastWalk`), or as many places on as were kept (`offsetWalk`). Both are compared with keeping the elements
of the whole list.

Main results: `lastWalk_eq_iff`, `offsetWalk_eq_iff`.
-/
import Mathlib.Data.List.TakeWhile
import Langbridge.Core.Text

namespace Langbridge.Core

open List

variable {α : Type} (keep : α → Bool)

/-! ## The list after some kept elements -/

/-- the list after the `k`-th kept element -/
def afterKept : ℕ → List α → List α
  | 0, l => l
  | _ + 1, [] => []
  | k + 1, a :: l => if keep a then afterKept k l else afterKept (k + 1) l

theorem filter_afterKept (k : ℕ) (l : List α) : (afterKept keep k l).filter keep = (l.filter keep).drop k := by
  induction l generalizing k with
  | nil => cases k <;> simp [afterKept]
  | cons a l ih =>
    cases k with
    | zero => rfl
    | succ k =>
      rw [afterKept]
      by_cases ha : keep a = true
      · rw [if_pos ha, filter_cons_of_pos ha, drop_succ_cons, ih]
      · rw [if_neg ha, filter_cons_of_neg ha, ih]

theorem afterKept_of_all (k : ℕ) (l : List α) (h : ∀ a ∈ l, keep a = true) : afterKept keep k l = l.drop k := by
  induction l generalizing k with
  | nil => cases k <;> rfl
  | cons a l ih =>
    cases k with
    | zero => rfl
    | succ k =>
      rw [afterKept, if_pos (h a mem_cons_self), drop_succ_cons,
        ih k fun b hb => h b (mem_cons_of_mem _ hb)]

/-- the list is cut behind its `k`-th kept element -/
theorem afterKept_split (k : ℕ) (l : List α) (hk : k + 1 ≤ (l.filter keep).length) :
    ∃ a x, l = a ++ x :: afterKept keep (k + 1) l ∧ keep x = true ∧ (a.filter keep).length = k := by
  induction l generalizing k with
  | nil => simp at hk
  | cons b l ih =>
    rw [afterKept]
    by_cases hb : keep b = true
    · rw [if_pos hb]
      rw [filter_cons_of_pos hb, length_cons] at hk
      cases k with
      | zero =>
        refine ⟨[], b, ?_, hb, rfl⟩
        rw [afterKept, nil_append]
      | succ k =>
        obtain ⟨a, x, hl, hx, ha⟩ := ih k (by omega)
        refine ⟨b :: a, x, congrArg (b :: ·) hl, hx, ?_⟩
        rw [filter_cons_of_pos hb, length_cons, ha]
    · rw [if_neg hb]
      rw [filter_cons_of_neg hb] at hk
      obtain ⟨a, x, hl, hx, ha⟩ := ih k hk
      refine ⟨b :: a, x, congrArg (b :: ·) hl, hx, ?_⟩
      rw [filter_cons_of_neg hb, ha]

/-- the list is cut behind the last element of a page of its first kept ones -/
theorem afterKept_page (page l : List α) (hpage : page = (l.filter keep).take page.length) (hne : page ≠ []) :
    ∃ a x, l = a ++ x :: afterKept keep page.length l ∧ page.getLast? = some x := by
  obtain ⟨k, hk⟩ := Nat.exists_eq_succ_of_ne_zero fun h => hne (length_eq_zero_iff.1 h)
  have hcount : k + 1 ≤ (l.filter keep).length := by
    have := congrArg List.length hpage
    rw [length_take] at this
    omega
  obtain ⟨a, x, hl, hx, ha⟩ := afterKept_split keep k l hcount
  refine ⟨a, x, hk ▸ hl, ?_⟩
  have hfilter : l.filter keep = a.filter keep ++ x :: (afterKept keep (k + 1) l).filter keep := by
    conv_lhs => rw [hl]
    rw [filter_append, filter_cons_of_pos hx]
  rw [hpage, hk, hfilter, ← ha, Nat.succ_eq_add_one, take_length_add_append, take_succ_cons, take_zero,
    getLast?_append]
  rfl

theorem afterKept_suffix (k : ℕ) (l : List α) : afterKept keep k l <:+ l := by
  induction l generalizing k with
  | nil => cases k <;> exact suffix_refl _
  | cons a l ih =>
    cases k with
    | zero => exact suffix_refl _
    | succ k =>
      rw [afterKept]
      split_ifs
      · exact (ih k).trans (suffix_cons a l)
      · exact (ih (k + 1)).trans (suffix_cons a l)

theorem afterKept_congr (keep' : α → Bool) (k : ℕ) (l : List α) (h : ∀ a ∈ l, keep' a = keep a) :
    afterKept keep' k l = afterKept keep k l := by
  induction l generalizing k with
  | nil => cases k <;> rfl
  | cons a l ih =>
    have ih' := fun k => ih k fun b hb => h b (mem_cons_of_mem a hb)
    cases k with
    | zero => rfl
    | succ k => rw [afterKept, afterKept, h a mem_cons_self, ih', ih']

theorem afterKept_length (k : ℕ) (l : List α) : (afterKept keep k l).length ≤ l.length - k := by
  induction l generalizing k with
  | nil => cases k <;> simp [afterKept]
  | cons a l ih =>
    cases k with
    | zero => simp [afterKept]
    | succ k =>
      rw [afterKept, length_cons]
      split_ifs
      · have := ih k
        omega
      · have := ih (k + 1)
        omega

/-! ## Walking on after the last kept element -/

def firstKept (n : ℕ) (l : List α) : List α := (l.take n).filter keep

theorem firstKept_prefix (n : ℕ) (l : List α) : firstKept keep n l ++ (l.drop n).filter keep = l.filter keep := by
  rw [firstKept, ← filter_append, take_append_drop]

/-- the first page is all exactly when nothing behind it is kept -/
theorem firstKept_eq_filter_iff (n : ℕ) (l : List α) :
    firstKept keep n l = l.filter keep ↔ (l.drop n).filter keep = [] := by
  rw [← firstKept_prefix keep n l, self_eq_append_right]

theorem firstKept_eq_take (n : ℕ) (l : List α) :
    firstKept keep n l = (l.filter keep).take (firstKept keep n l).length := by
  rw [← firstKept_prefix keep n l, take_left]

theorem filter_after_firstKept (n : ℕ) (l : List α) :
    firstKept keep n l ++ (afterKept keep (firstKept keep n l).length l).filter keep = l.filter keep := by
  rw [filter_afterKept]
  nth_rewrite 1 [firstKept_eq_take keep n l]
  exact take_append_drop _ _

/-- pages of `n` elements, each after the last kept one of the page before, until a page keeps none; with `more`, also
until a page reaches the end -/
def lastWalk (more : Bool) (n : ℕ) (l : List α) : List α :=
  if (more && l.length ≤ n) || (firstKept keep n l).isEmpty then firstKept keep n l
  else firstKept keep n l ++ lastWalk more n (afterKept keep (firstKept keep n l).length l)
termination_by l.length
decreasing_by
  rename_i hgo
  rw [Bool.or_eq_true, not_or] at hgo
  have hne : (firstKept keep n l).length ≠ 0 := fun h => hgo.2 (isEmpty_iff.2 (length_eq_zero_iff.1 h))
  have hle : (firstKept keep n l).length ≤ l.length :=
    (length_filter_le _ _).trans (length_take_le' _ _)
  have := afterKept_length keep (firstKept keep n l).length l
  omega

/-- no kept element follows `n` others in a row; `run` counts the ones just read -/
def gapFree (n : ℕ) : ℕ → List α → Bool
  | _, [] => true
  | run, a :: l => if keep a then decide (run < n) && gapFree n 0 l else gapFree n (run + 1) l

theorem gapFree_append (n run : ℕ) (a : List α) (x : α) (rest : List α) (hx : keep x = true)
    (ha : run + a.length < n) : gapFree keep n run (a ++ x :: rest) = gapFree keep n 0 rest := by
  induction a generalizing run with
  | nil =>
    rw [nil_append, gapFree, if_pos hx, decide_eq_true (show run < n by simpa using ha), Bool.true_and]
  | cons b a ih =>
    rw [length_cons] at ha
    rw [cons_append, gapFree]
    split_ifs
    · rw [decide_eq_true (by omega), Bool.true_and]
      exact ih 0 (by omega)
    · exact ih (run + 1) (by omega)

/-- after a full page of others no element may be kept -/
theorem gapFree_full (n run : ℕ) (l : List α) (hrun : n ≤ run) : gapFree keep n run l = true ↔ l.filter keep = [] := by
  induction l generalizing run with
  | nil => exact ⟨fun _ => rfl, fun _ => rfl⟩
  | cons a l ih =>
    rw [gapFree]
    by_cases ha : keep a = true
    · rw [if_pos ha, filter_cons_of_pos ha, decide_eq_false (by omega), Bool.false_and]
      exact ⟨fun h => absurd h Bool.false_ne_true, fun h => absurd h (cons_ne_nil _ _)⟩
    · rw [if_neg ha, filter_cons_of_neg ha]
      exact ih (run + 1) (by omega)

/-- elements that are not kept are counted -/
theorem gapFree_dropped (n run : ℕ) (b rest : List α) (hb : b.filter keep = []) :
    gapFree keep n run (b ++ rest) = gapFree keep n (run + b.length) rest := by
  induction b generalizing run with
  | nil => rfl
  | cons x b ih =>
    have hx : ¬keep x = true := filter_eq_nil_iff.1 hb x mem_cons_self
    rw [filter_cons_of_neg hx] at hb
    rw [cons_append, gapFree, if_neg hx, ih (run + 1) hb, length_cons]
    congr 1
    omega

theorem gapFree_short (n run : ℕ) (l : List α) (h : run + l.length ≤ n) : gapFree keep n run l = true := by
  induction l generalizing run with
  | nil => rfl
  | cons a l ih =>
    rw [length_cons] at h
    rw [gapFree]
    split_ifs
    · rw [decide_eq_true (by omega), Bool.true_and]
      exact ih 0 (by omega)
    · exact ih (run + 1) (by omega)

/-- **The walk after the last kept element** keeps all exactly when no kept element follows a full page of others. -/
theorem lastWalk_eq_iff (more : Bool) (n : ℕ) (l : List α) :
    lastWalk keep more n l = l.filter keep ↔ gapFree keep n 0 l = true := by
  induction hlength : l.length using Nat.strong_induction_on generalizing l with
  | _ length ih =>
    subst hlength
    rw [lastWalk]
    split_ifs with hstop
    · rw [Bool.or_eq_true, Bool.and_eq_true, decide_eq_true_eq, List.isEmpty_iff] at hstop
      have hsplit := firstKept_prefix keep n l
      rcases hstop with ⟨-, hend⟩ | hnone
      · rw [gapFree_short keep n 0 l (by omega)]
        rw [drop_of_length_le hend, filter_nil, append_nil] at hsplit
        exact ⟨fun _ => rfl, fun _ => hsplit⟩
      · rw [← hsplit, hnone, nil_append]
        by_cases hend : l.length ≤ n
        · rw [gapFree_short keep n 0 l (by omega), drop_of_length_le hend]
          exact ⟨fun _ => rfl, fun _ => rfl⟩
        · have hgap : gapFree keep n 0 l = gapFree keep n n (l.drop n) := by
            conv_lhs => rw [← take_append_drop n l]
            rw [gapFree_dropped keep n 0 _ _ hnone, length_take, Nat.zero_add, Nat.min_eq_left (by omega)]
          rw [hgap, gapFree_full keep n n _ le_rfl]
          exact eq_comm
    · rw [Bool.or_eq_true, not_or] at hstop
      obtain ⟨k, hk⟩ : ∃ k, (firstKept keep n l).length = k + 1 :=
        Nat.exists_eq_succ_of_ne_zero fun h => hstop.2 (isEmpty_iff.2 (length_eq_zero_iff.1 h))
      have hcount : k + 1 ≤ (l.filter keep).length := by
        rw [← firstKept_prefix keep n l, length_append]
        omega
      obtain ⟨a, x, hl, hx, ha⟩ := afterKept_split keep k l hcount
      -- the last kept element of the page stands in the page
      have hpage : a.length < n := by
        by_contra hlong
        have htake : l.take n = a.take n := by
          rw [hl, take_append_of_le_length (by omega)]
        have hle : (firstKept keep n l).length ≤ (a.filter keep).length := by
          rw [firstKept, htake]
          exact ((take_sublist n a).filter keep).length_le
        omega
      have hrest : (afterKept keep (k + 1) l).length < l.length := by
        have := congrArg List.length hl
        rw [length_append, length_cons] at this
        omega
      have hgap : gapFree keep n 0 l = gapFree keep n 0 (afterKept keep (k + 1) l) := by
        conv_lhs => rw [hl]
        exact gapFree_append keep n 0 a x _ hx (by omega)
      have hfilter := filter_after_firstKept keep n l
      rw [hk] at hfilter ⊢
      rw [← hfilter, append_cancel_left_eq, hgap]
      exact ih _ hrest _ rfl

/-! ## Walking on by as many places as were kept -/

/-- an offset walk ends with a page that is the last, that reaches the total or keeps none, or, without a total, with
a page that keeps fewer than it may hold -/
def offsetStops (hasLast hasTotal : Bool) (n left kept : ℕ) : Bool :=
  (hasLast && decide (left ≤ n)) || (hasTotal && decide (left ≤ kept)) || decide (kept = 0) ||
    (!hasTotal && decide (kept < n))

theorem offsetStops_iff (hasLast hasTotal : Bool) (n left kept : ℕ) :
    offsetStops hasLast hasTotal n left kept = true ↔ (hasLast = true ∧ left ≤ n) ∨ (hasTotal = true ∧ left ≤ kept) ∨
      kept = 0 ∨ (hasTotal = false ∧ kept < n) := by
  simp [offsetStops, or_assoc]

/-- pages of `n` elements, each as many places behind the one before as that one kept -/
def offsetWalk (hasLast hasTotal : Bool) (n : ℕ) (l : List α) : List α :=
  if offsetStops hasLast hasTotal n l.length (firstKept keep n l).length then firstKept keep n l
  else firstKept keep n l ++ offsetWalk hasLast hasTotal n (l.drop (firstKept keep n l).length)
termination_by l.length
decreasing_by
  rename_i hgo
  have hne : (firstKept keep n l).length ≠ 0 := by
    intro h
    apply hgo
    simp [offsetStops, h]
  have hle : (firstKept keep n l).length ≤ l.length :=
    (length_filter_le _ _).trans (length_take_le' _ _)
  rw [length_drop]
  omega

/-- what an offset walk needs of the elements `rest` behind the first kept ones, which leave a page with `full` places
taken: that its first short page is known to be the last, that none of `rest` is kept, or that the kept ones are all in
that page; with a total, where a short page does not end the walk, that they are all behind it and the page after it is
the last -/
def restSafe (hasLast hasTotal : Bool) (n full : ℕ) (rest : List α) : Prop :=
  (hasLast = true ∧ full + rest.length ≤ n) ∨ rest.filter keep = [] ∨
    if hasTotal then hasLast = true ∧ rest.length ≤ n ∧ (rest.take (n - full)).filter keep = []
    else (rest.drop (n - full)).filter keep = []

def offsetSafe (hasLast hasTotal : Bool) (n : ℕ) (l : List α) : Prop :=
  restSafe keep hasLast hasTotal n ((l.takeWhile keep).length % n) (l.dropWhile keep)

/-- with a total, and a page that keeps none of `rest` -/
theorem restSafe_none (hasLast : Bool) (n full : ℕ) (rest : List α) (h : firstKept keep (n - full) rest = []) :
    restSafe keep hasLast true n full rest ↔ (hasLast = true ∧ rest.length ≤ n) ∨ rest.filter keep = [] := by
  constructor
  · rintro (⟨hlast, hle⟩ | hnil | ⟨hlast, hle, -⟩)
    · exact .inl ⟨hlast, by omega⟩
    · exact .inr hnil
    · exact .inl ⟨hlast, hle⟩
  · rintro (⟨hlast, hle⟩ | hnil)
    · exact .inr (.inr ⟨hlast, hle, h⟩)
    · exact .inr (.inl hnil)

/-- with a total, and an empty page before `rest` -/
theorem restSafe_zero (hasLast : Bool) (n : ℕ) (rest : List α) :
    restSafe keep hasLast true n 0 rest ↔ (hasLast = true ∧ rest.length ≤ n) ∨ rest.filter keep = [] := by
  constructor
  · rintro (⟨hlast, hle⟩ | hnil | ⟨hlast, hle, -⟩)
    · exact .inl ⟨hlast, by omega⟩
    · exact .inr hnil
    · exact .inl ⟨hlast, hle⟩
  · rintro (⟨hlast, hle⟩ | hnil)
    · exact .inl ⟨hlast, by omega⟩
    · exact .inr (.inl hnil)

theorem firstKept_subset_offsetWalk (hasLast hasTotal : Bool) (n : ℕ) (l : List α) :
    ∀ x ∈ firstKept keep n l, x ∈ offsetWalk keep hasLast hasTotal n l := by
  intro x hx
  rw [offsetWalk]
  split_ifs
  · exact hx
  · exact mem_append_left _ hx

/-- a page that does not keep all of its first `k` elements, and keeps `k`, keeps one behind them -/
theorem exists_kept_behind (n k : ℕ) (l : List α) (hk : (firstKept keep n l).length = k)
    (hall : ¬∀ x ∈ l.take k, keep x = true) : ∃ x ∈ firstKept keep (n - k) (l.drop k), keep x = true := by
  by_contra hnone
  have hempty : firstKept keep (n - k) (l.drop k) = [] :=
    eq_nil_iff_forall_not_mem.2 fun y hy => hnone ⟨y, hy, of_mem_filter hy⟩
  have hle : k ≤ n := hk ▸ (length_filter_le _ _).trans (length_take_le _ _)
  have hle' : k ≤ l.length := hk ▸ (length_filter_le _ _).trans (length_take_le' _ _)
  have hpage : firstKept keep n l = (l.take k).filter keep := by
    have hsplit : l.take n = l.take k ++ (l.drop k).take (n - k) := by
      rw [← take_add, Nat.add_sub_cancel' hle]
    rw [firstKept, hsplit, filter_append, show ((l.drop k).take (n - k)).filter keep = [] from hempty,
      append_nil]
  apply hall
  apply length_filter_eq_length_iff.1
  rw [← hpage, hk, length_take, Nat.min_eq_left hle']

/-- a walk that goes on behind the first `k` elements, where `k` were kept but not all of these, reads one again -/
theorem offsetWalk_rereads (hasLast hasTotal : Bool) (n : ℕ) (l : List α) (hnodup : l.Nodup)
    (hgo : ¬offsetStops hasLast hasTotal n l.length (firstKept keep n l).length = true)
    (hall : ¬∀ x ∈ l.take (firstKept keep n l).length, keep x = true) :
    offsetWalk keep hasLast hasTotal n l ≠ l.filter keep := by
  intro hsame
  obtain ⟨x, hx, -⟩ := exists_kept_behind keep n _ l rfl hall
  rw [offsetWalk, if_neg hgo, ← firstKept_prefix keep n l, append_cancel_left_eq] at hsame
  generalize (firstKept keep n l).length = k at hsame hx
  have hbefore : x ∈ l.take n := by
    have hpage : x ∈ (l.drop k).take (n - k) := mem_of_mem_filter hx
    rw [← drop_take] at hpage
    exact mem_of_mem_drop hpage
  have hafter : x ∈ l.drop n := by
    have hread : x ∈ offsetWalk keep hasLast hasTotal n (l.drop k) := by
      apply firstKept_subset_offsetWalk
      exact ((take_sublist_take_left (Nat.sub_le n k)).filter keep).subset hx
    rw [hsame] at hread
    exact mem_of_mem_filter hread
  rw [← take_append_drop n l] at hnodup
  exact (disjoint_of_nodup_append hnodup) hbefore hafter

/-- **The walk by as many places as were kept** over distinct elements, of which those of `full` are kept and the first
of `rest` is not, keeps all exactly when `rest` is safe behind them. -/
theorem offsetWalk_append_iff (hasLast hasTotal : Bool) (n : ℕ) (hn : 0 < n) (full rest : List α)
    (hfull : ∀ a ∈ full, keep a = true) (hrest : ∀ a ∈ rest.head?, keep a = false) (hnodup : (full ++ rest).Nodup) :
    offsetWalk keep hasLast hasTotal n (full ++ rest) = (full ++ rest).filter keep ↔
      restSafe keep hasLast hasTotal n (full.length % n) rest := by
  induction hlength : (full ++ rest).length using Nat.strong_induction_on generalizing full with
  | _ length ih =>
    subst hlength
    have hfilter : (full ++ rest).filter keep = full ++ rest.filter keep := by
      rw [filter_append, filter_eq_self.2 hfull]
    by_cases hpage : n ≤ full.length
    · -- the first page keeps all it reads
      have hfirst : firstKept keep n (full ++ rest) = full.take n := by
        rw [firstKept, take_append_of_le_length hpage]
        exact filter_eq_self.2 fun a ha => hfull a (mem_of_mem_take ha)
      have hcount : (firstKept keep n (full ++ rest)).length = n := by
        rw [hfirst, length_take, Nat.min_eq_left hpage]
      rw [offsetWalk, hcount]
      split_ifs with hstop
      · have hend : full.length + rest.length ≤ n := by
          simp [offsetStops] at hstop
          omega
        have hnil : rest = [] := length_eq_zero_iff.1 (by omega)
        subst hnil
        rw [hfirst, hfilter, take_of_length_le (by omega), filter_nil, append_nil]
        exact ⟨fun _ => .inr (.inl rfl), fun _ => rfl⟩
      · have hdrop : (full ++ rest).drop n = full.drop n ++ rest := drop_append_of_le_length hpage
        have hshort : (full.drop n ++ rest).length < (full ++ rest).length := by
          rw [length_append, length_append, length_drop]
          omega
        have hnodup' : (full.drop n ++ rest).Nodup := by
          rw [← hdrop]
          exact (drop_sublist n _).nodup hnodup
        have hstep := ih _ hshort (full.drop n) (fun a ha => hfull a (mem_of_mem_drop ha)) hnodup' rfl
        have hfilter' : (full ++ rest).filter keep = full.take n ++ (full.drop n ++ rest).filter keep := by
          rw [← hfirst, ← hdrop, firstKept_prefix]
        rw [hfirst, hdrop, hfilter', append_cancel_left_eq, hstep, length_drop, ← Nat.mod_eq_sub_mod hpage]
    · rw [not_le] at hpage
      rw [Nat.mod_eq_of_lt hpage]
      cases rest with
      | nil =>
        rw [append_nil] at hfilter ⊢
        rw [filter_nil, append_nil] at hfilter
        have hfirst : firstKept keep n full = full := by
          rw [firstKept, take_of_length_le hpage.le, hfilter]
        have hstop : offsetStops hasLast hasTotal n full.length full.length = true := by
          cases hasTotal <;> simp [offsetStops, hpage]
        rw [offsetWalk, hfirst, if_pos hstop, hfilter]
        exact ⟨fun _ => .inr (.inl rfl), fun _ => rfl⟩
      | cons t rest =>
        have ht : ¬keep t = true := by
          rw [hrest t rfl]
          exact Bool.false_ne_true
        have hfirst : firstKept keep n (full ++ t :: rest) = full ++ firstKept keep (n - full.length) (t :: rest) := by
          rw [firstKept, take_append, filter_append, take_of_length_le hpage.le,
            filter_eq_self.2 hfull, firstKept]
        have hbehind : (firstKept keep (n - full.length) (t :: rest)).length ≤ rest.length ∧
            (firstKept keep (n - full.length) (t :: rest)).length < n - full.length := by
          obtain ⟨m, hm⟩ : ∃ m, n - full.length = m + 1 := Nat.exists_eq_succ_of_ne_zero (by omega)
          rw [hm, firstKept, take_succ_cons, filter_cons_of_neg ht]
          have h1 := length_filter_le keep (rest.take m)
          rw [length_take] at h1
          omega
        have hdropn : (full ++ t :: rest).drop n = (t :: rest).drop (n - full.length) := by
          rw [drop_append, drop_of_length_le hpage.le, nil_append]
        have hlen : (full ++ t :: rest).length = full.length + (rest.length + 1) := by
          rw [length_append, length_cons]
        have hcount : (firstKept keep n (full ++ t :: rest)).length =
            full.length + (firstKept keep (n - full.length) (t :: rest)).length := by
          rw [hfirst, length_append]
        by_cases hlast : hasLast = true ∧ full.length + (rest.length + 1) ≤ n
        · have hstop : offsetStops hasLast hasTotal n (full ++ t :: rest).length
              (firstKept keep n (full ++ t :: rest)).length = true := by
            simp [offsetStops, hlast.1, hlast.2]
          rw [offsetWalk, if_pos hstop, firstKept_eq_filter_iff, drop_of_length_le (by omega)]
          exact ⟨fun _ => .inl hlast, fun _ => rfl⟩
        · cases hasTotal with
          | false =>
            have hstop : offsetStops hasLast false n (full ++ t :: rest).length
                (firstKept keep n (full ++ t :: rest)).length = true := by
              simp [offsetStops]
              omega
            rw [offsetWalk, if_pos hstop, firstKept_eq_filter_iff, hdropn]
            constructor
            · exact fun h => .inr (.inr h)
            · rintro (h | h | h)
              · exact absurd h hlast
              · exact filter_eq_nil_iff.2 fun a ha => filter_eq_nil_iff.1 h a (mem_of_mem_drop ha)
              · exact h
          | true =>
            have hgo : full.length + (firstKept keep (n - full.length) (t :: rest)).length ≠ 0 →
                ¬offsetStops hasLast true n (full ++ t :: rest).length
                  (firstKept keep n (full ++ t :: rest)).length = true := by
              intro hne
              rw [hcount, hlen, offsetStops_iff]
              rintro (h | ⟨-, h⟩ | h | ⟨h, -⟩)
              · exact hlast h
              · omega
              · exact hne h
              · cases h
            by_cases hnone : firstKept keep (n - full.length) (t :: rest) = []
            · have hkept : firstKept keep n (full ++ t :: rest) = full := by
                rw [hfirst, hnone, append_nil]
              rw [restSafe_none keep hasLast n full.length _ hnone]
              cases full with
              | nil =>
                have hstop : offsetStops hasLast true n ([] ++ t :: rest).length
                    (firstKept keep n ([] ++ t :: rest)).length = true := by
                  rw [hkept, offsetStops_iff]
                  exact .inr (.inr (.inl rfl))
                rw [offsetWalk, if_pos hstop, hkept, hfilter, nil_append]
                constructor
                · exact fun h => .inr h.symm
                · rintro (⟨h1, h2⟩ | h)
                  · exact absurd ⟨h1, by simpa using h2⟩ hlast
                  · exact h.symm
              | cons a full =>
                rw [offsetWalk, if_neg (hgo (by rw [length_cons]; omega)), hkept, drop_left, hfilter,
                  append_cancel_left_eq, ← restSafe_zero]
                have hstep := ih (t :: rest).length (by rw [hlen, length_cons, length_cons]; omega) []
                  (fun _ h => absurd h not_mem_nil) hnodup.of_append_right rfl
                rwa [nil_append, length_nil, Nat.zero_mod] at hstep
            · -- the elements after the first one left out are read again
              have hagain : ¬offsetWalk keep hasLast true n (full ++ t :: rest) = (full ++ t :: rest).filter keep := by
                have hpos := length_pos_iff.2 hnone
                refine offsetWalk_rereads keep hasLast true n _ hnodup (hgo (by omega)) fun h => ht (h t ?_)
                obtain ⟨m, hm⟩ := Nat.exists_eq_succ_of_ne_zero hpos.ne'
                rw [hcount, take_length_add_append, hm, take_succ_cons]
                exact mem_append_right _ mem_cons_self
              have hunsafe : ¬restSafe keep hasLast true n full.length (t :: rest) := by
                rintro (h | h | ⟨-, -, h⟩)
                · exact hlast h
                · apply hnone
                  exact filter_eq_nil_iff.2 fun a ha => filter_eq_nil_iff.1 h a (mem_of_mem_take ha)
                · exact hnone h
              exact iff_of_false hagain hunsafe

/-- **The walk by as many places as were kept** keeps all of a list of distinct elements exactly when what follows its
first kept ones is safe. -/
theorem offsetWalk_eq_iff (hasLast hasTotal : Bool) (n : ℕ) (hn : 0 < n) (l : List α) (hnodup : l.Nodup) :
    offsetWalk keep hasLast hasTotal n l = l.filter keep ↔ offsetSafe keep hasLast hasTotal n l := by
  have hsplit : l.takeWhile keep ++ l.dropWhile keep = l := takeWhile_append_dropWhile
  have h := offsetWalk_append_iff keep hasLast hasTotal n hn (l.takeWhile keep) (l.dropWhile keep)
    (fun a ha => mem_takeWhile_imp ha) (head_dropWhile keep l) (hsplit.symm ▸ hnodup)
  rwa [hsplit] at h

end Langbridge.Core
