/-
Replacing the matches of a pattern (`re.sub`). The matches are looked for from the left, and the next one begins at the
earliest where the last one ends. A text is cut into its matches and the other elements; each match carries the mark
that the elements before it leave, so that the same cut serves to replace some of the matches only.

Main results: `pieces_append`, `pieces_clean`.
-/
import Mathlib.Tactic

namespace Langbridge.Core

open List

variable {α μ δ : Type}

/-- the length and the data of the match that begins a text, after the element before it -/
abbrev Pattern (α δ : Type) := Option α → List α → Option (ℕ × δ)

/-- an element of no match, or a match with the mark before it -/
inductive Piece (α μ δ : Type) where
  | same (c : α)
  | found (mark : μ) (text : List α) (data : δ)

/-- what stands before a text after a part of it -/
def lastOr (before : Option α) (l : List α) : Option α := l.getLast?.or before

namespace Pattern

variable (P : Pattern α δ) (step : μ → α → μ)

/-- the pieces of a text, once the next `skip` elements are dropped -/
def pieces : μ → Option α → ℕ → List α → List (Piece α μ δ)
  | _, _, _, [] => []
  | m, _, skip + 1, c :: cs => pieces (step m c) (some c) skip cs
  | m, before, 0, c :: cs =>
    match P before (c :: cs) with
    | some (n, d) => .found m ((c :: cs).take n) d :: pieces (step m c) (some c) (n - 1) cs
    | none => .same c :: pieces (step m c) (some c) 0 cs

end Pattern

def Piece.replace (replacement : δ → List α) : Piece α μ δ → List α
  | .same c => [c]
  | .found _ _ d => replacement d

/-- a piece with the matches replaced that satisfy a condition -/
def Piece.replaceIf (ok : μ → δ → Bool) (replacement : δ → List α) : Piece α μ δ → List α
  | .same c => [c]
  | .found m text d => if ok m d then replacement d else text

def Piece.isFound : Piece α μ δ → Bool
  | .same _ => false
  | .found _ _ _ => true

/-- a piece satisfies a condition if it is a match -/
def Piece.All (ok : μ → δ → Bool) : Piece α μ δ → Prop
  | .same _ => True
  | .found m _ d => ok m d = true

/-- `pattern.sub(replacement, text)` -/
def Pattern.sub (P : Pattern α δ) (replacement : δ → List α) (s : List α) : List α :=
  (P.pieces (fun _ _ => ()) () none 0 s).flatMap (Piece.replace replacement)

@[simp] theorem lastOr_nil (before : Option α) : lastOr before [] = before := by
  cases before <;> rfl

@[simp] theorem lastOr_cons (before : Option α) (c : α) (l : List α) : lastOr before (c :: l) = lastOr (some c) l := by
  rw [lastOr, lastOr, getLast?_cons]
  cases l.getLast? <;> rfl

theorem lastOr_append (before : Option α) (x y : List α) : lastOr before (x ++ y) = lastOr (lastOr before x) y := by
  rw [lastOr, getLast?_append, lastOr, lastOr, Option.or_assoc]

namespace Pattern

variable (P : Pattern α δ) (step : μ → α → μ)

/-- matches are no longer than the text -/
def Bounded : Prop := ∀ before s n d, P before s = some (n, d) → 0 < n ∧ n ≤ s.length

/-- no match begins in a part of a text that another part follows -/
def Clean (before : Option α) : List α → List α → Prop
  | [], _ => True
  | c :: x, t => P before (c :: x ++ t) = none ∧ Clean (some c) x t

variable {P step}

variable {m : μ} {before : Option α} {d : δ}

theorem pieces_found {c : α} {cs : List α} {n : ℕ} (h : P before (c :: cs) = some (n, d)) :
    P.pieces step m before 0 (c :: cs) =
      .found m ((c :: cs).take n) d :: P.pieces step (step m c) (some c) (n - 1) cs := by
  rw [pieces, h]

theorem pieces_same {c : α} {cs : List α} (h : P before (c :: cs) = none) :
    P.pieces step m before 0 (c :: cs) = .same c :: P.pieces step (step m c) (some c) 0 cs := by
  rw [pieces, h]

theorem pieces_skip (m : μ) (before : Option α) (x t : List α) :
    P.pieces step m before x.length (x ++ t) = P.pieces step (x.foldl step m) (lastOr before x) 0 t := by
  induction x generalizing m before with
  | nil => rw [lastOr_nil, nil_append, length_nil, foldl_nil]
  | cons c x ih => rw [length_cons, cons_append, pieces, ih, lastOr_cons, foldl_cons]

variable {x t : List α}

/-- a match and what stands behind it -/
theorem pieces_match (hx : x ≠ []) (h : P before (x ++ t) = some (x.length, d)) : P.pieces step m before 0 (x ++ t) =
      .found m x d :: P.pieces step (x.foldl step m) (lastOr before x) 0 t := by
  obtain ⟨c, x, rfl⟩ := exists_cons_of_ne_nil hx
  rw [cons_append] at h
  rw [cons_append, pieces_found h, ← cons_append, take_left, length_cons, Nat.add_sub_cancel,
    pieces_skip, lastOr_cons, foldl_cons]

theorem clean_append_iff {x y t : List α} :
    P.Clean before (x ++ y) t ↔ P.Clean before x (y ++ t) ∧ P.Clean (lastOr before x) y t := by
  induction x generalizing before with
  | nil =>
    exact (and_iff_right trivial).symm
  | cons c x ih =>
    rw [lastOr_cons, cons_append, Clean, Clean, ih, ← and_assoc, ← cons_append, append_assoc]

/-- what follows a part matters for the matches that begin in it only -/
theorem clean_congr {x t t' : List α} (h : ∀ b y, y ≠ [] → y <:+ x → (P b (y ++ t) = none ↔ P b (y ++ t') = none)) :
    P.Clean before x t ↔ P.Clean before x t' := by
  induction x generalizing before with
  | nil => exact Iff.rfl
  | cons c x ih =>
    exact and_congr (h before (c :: x) (cons_ne_nil c x) (suffix_refl _))
      (ih fun b y hy hsuffix => h b y hy (hsuffix.trans (suffix_cons c x)))

variable (step) in
/-- a part that no match begins in -/
theorem pieces_clean (h : P.Clean before x t) (m : μ) : P.pieces step m before 0 (x ++ t) =
      x.map .same ++ P.pieces step (x.foldl step m) (lastOr before x) 0 t := by
  induction x generalizing m before with
  | nil => rw [lastOr_nil, nil_append, map_nil, nil_append, foldl_nil]
  | cons c x ih =>
    have hc : P before (c :: (x ++ t)) = none := h.1
    rw [cons_append, pieces_same hc, ih h.2, lastOr_cons, foldl_cons, map_cons, cons_append]

/-- **Parts of a text.** Where no match runs from one part into the next, the pieces are those of the parts. -/
theorem pieces_append (hP : P.Bounded)
    (h : ∀ before y, y ≠ [] → y <:+ x → P before (y ++ t) = P before y) (m : μ) (before : Option α) (skip : ℕ)
    (hskip : skip ≤ x.length) :
    P.pieces step m before skip (x ++ t) =
      P.pieces step m before skip x ++ P.pieces step (x.foldl step m) (lastOr before x) 0 t := by
  induction x generalizing m before skip with
  | nil =>
    obtain rfl : skip = 0 := Nat.le_zero.1 hskip
    rw [lastOr_nil, nil_append, pieces, nil_append, foldl_nil]
  | cons c x ih =>
    have hx : ∀ before y, y ≠ [] → y <:+ x → P before (y ++ t) = P before y := fun before y hy hsuffix =>
      h before y hy (hsuffix.trans (suffix_cons c x))
    have hhere := h before (c :: x) (cons_ne_nil c x) (suffix_refl _)
    rw [lastOr_cons, foldl_cons]
    cases skip with
    | succ n =>
      exact ih hx _ _ n (Nat.le_of_succ_le_succ hskip)
    | zero =>
      cases hc : P before (c :: x) with
      | none =>
        rw [hc, cons_append] at hhere
        rw [cons_append, pieces_same hhere, pieces_same hc, ih hx _ _ 0 (Nat.zero_le _), cons_append]
      | some found =>
        obtain ⟨n, d⟩ := found
        obtain ⟨hpos, hle⟩ := hP _ _ _ _ hc
        rw [hc, cons_append] at hhere
        rw [cons_append, pieces_found hhere, pieces_found hc, ← cons_append,
          take_append_of_le_length hle, ih hx _ _ (n - 1) (by rw [length_cons] at hle; omega),
          cons_append]

/-- what stands before a text matters for a match that begins it only -/
theorem pieces_before {before before' : Option α} {s : List α} (h : P before s = P before' s) (m : μ) :
    P.pieces step m before 0 s = P.pieces step m before' 0 s := by
  cases s with
  | nil => rfl
  | cons c cs => rw [pieces, pieces, h]

/-- every match of the pieces is one of the pattern -/
theorem found_of_mem {m m' : μ} {skip : ℕ} {s text : List α} (h : .found m' text d ∈ P.pieces step m before skip s) :
    ∃ b cs n, P b cs = some (n, d) ∧ text = cs.take n := by
  fun_induction pieces P step m before skip s with
  | case1 => cases h
  | case2 m before skip c cs ih => exact ih h
  | case3 m before c cs n d' hc ih =>
    rcases mem_cons.1 h with heq | h
    · cases heq
      exact ⟨before, c :: cs, n, hc, rfl⟩
    · exact ih h
  | case4 m before c cs hc ih => exact ih ((mem_cons.1 h).resolve_left fun heq => nomatch heq)

/-- a text has no match, or one behind a part that none begins in -/
theorem clean_or_match (hP : P.Bounded) (before : Option α) (s : List α) : P.Clean before s [] ∨
    ∃ x text t d, s = x ++ (text ++ t) ∧ text ≠ [] ∧ P.Clean before x (text ++ t) ∧
      P (lastOr before x) (text ++ t) = some (text.length, d) := by
  induction s generalizing before with
  | nil => exact .inl trivial
  | cons c s ih =>
    cases hc : P before (c :: s) with
    | some found =>
      obtain ⟨n, d⟩ := found
      obtain ⟨hpos, hle⟩ := hP _ _ _ _ hc
      have hlength : ((c :: s).take n).length = n := length_take_of_le hle
      refine .inr ⟨[], (c :: s).take n, (c :: s).drop n, d, ?_, ?_, trivial, ?_⟩
      · rw [nil_append, take_append_drop]
      · exact ne_nil_of_length_pos (hlength.symm ▸ hpos)
      · rw [take_append_drop, lastOr_nil, hlength, hc]
    | none =>
      rcases ih (some c) with hclean | ⟨x, text, t, d, rfl, hne, hclean, hmatch⟩
      · exact .inl ⟨by rw [append_nil]; exact hc, hclean⟩
      · refine .inr ⟨c :: x, text, t, d, rfl, hne, ⟨hc, hclean⟩, ?_⟩
        rw [lastOr_cons]
        exact hmatch

/-- the marks do not matter where all matches are replaced -/
theorem replace_pieces {ν : Type} (step' : ν → α → ν) (replacement : δ → List α) (m : μ) (m' : ν) (before : Option α)
    (skip : ℕ) (s : List α) : (P.pieces step m before skip s).flatMap (Piece.replace replacement) =
      (P.pieces step' m' before skip s).flatMap (Piece.replace replacement) := by
  induction s generalizing m m' before skip with
  | nil => rfl
  | cons c s ih =>
    cases skip with
    | succ n => exact ih _ _ _ n
    | zero =>
      cases hc : P before (c :: s) with
      | none =>
        rw [pieces_same hc, pieces_same hc, flatMap_cons, flatMap_cons, ih]
        rfl
      | some found =>
        rw [pieces_found hc, pieces_found hc, flatMap_cons, flatMap_cons, ih]
        rfl

theorem flatMap_replace_same (x : List α) (replacement : δ → List α) :
    (x.map (.same : α → Piece α μ δ)).flatMap (Piece.replace replacement) = x := by
  rw [flatMap_map]
  exact flatMap_singleton' x

theorem flatMap_replaceIf_same (x : List α) (ok : μ → δ → Bool) (replacement : δ → List α) :
    (x.map (.same : α → Piece α μ δ)).flatMap (Piece.replaceIf ok replacement) = x := by
  rw [flatMap_map]
  exact flatMap_singleton' x

theorem all_same (x : List α) (ok : μ → δ → Bool) : ∀ p ∈ x.map (.same : α → Piece α μ δ), p.All ok := by
  intro p hp
  obtain ⟨c, -, rfl⟩ := mem_map.1 hp
  trivial

/-- **Replacing some of the matches.** Where no replacement begins as its match does, replacing all matches gives the
same as replacing those that satisfy a condition only if all do. -/
theorem replace_eq_iff {ok : μ → δ → Bool} {replacement : δ → List α} {l : List (Piece α μ δ)}
    (hl : ∀ m text d, .found m text d ∈ l → ∀ t t', replacement d ++ t ≠ text ++ t') (t t' : List α) :
    l.flatMap (Piece.replace replacement) ++ t = l.flatMap (Piece.replaceIf ok replacement) ++ t' ↔
      (∀ p ∈ l, p.All ok) ∧ t = t' := by
  induction l with
  | nil => exact (and_iff_right fun p hp => nomatch hp).symm
  | cons p l ih =>
    have ih := ih fun m text d hmem => hl m text d (mem_cons_of_mem p hmem)
    rw [flatMap_cons, flatMap_cons, append_assoc, append_assoc, forall_mem_cons, and_assoc,
      ← ih]
    cases p with
    | same c => exact ⟨fun h => ⟨trivial, (List.cons.inj h).2⟩, fun h => congrArg (c :: ·) h.2⟩
    | found m text d =>
      change _ = (if ok m d then replacement d else text) ++ _ ↔ ok m d = true ∧ _
      split_ifs with hok
      · rw [Piece.replace, append_cancel_left_eq, and_iff_right hok]
      · exact iff_of_false (hl m text d mem_cons_self _ _) fun h => hok h.1

end Pattern

end Langbridge.Core
