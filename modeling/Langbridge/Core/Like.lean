/-
`LIKE` patterns: `%` stands for any text, `_` for any character, and every other character for itself. A pattern made of
a text by putting `%` around it is meant to find the texts that contain the first one; it does where the text has no
pattern characters of its own.

Main results: `like_append`, `like_pattern_of_plain`, `like_values_iff`.
-/
import Mathlib.Tactic

namespace Langbridge.Core.Like

open List

/-- an element of a pattern -/
inductive Token (α : Type)
  | any
  | one
  | char (a : α)
deriving DecidableEq

variable {α : Type} [DecidableEq α]

/-- the pattern matches the text -/
def like : List (Token α) → List α → Bool
  | [], text => text.isEmpty
  | .any :: p, text => text.tails.any (like p)
  | .one :: _, [] => false
  | .one :: p, _ :: text => like p text
  | .char _ :: _, [] => false
  | .char a :: p, c :: text => a = c && like p text

/-- a plain text as a pattern -/
def plain (s : List α) : List (Token α) := s.map Token.char

/-- the tokens that stand for one character -/
def weight (p : List (Token α)) : ℕ := p.countP fun t => match t with
  | .any => false
  | _ => true

/-- a text that the pattern matches, with a character for each of its own -/
def fillToken (c : α) : Token α → α
  | .char a => a
  | _ => c

def fill (c : α) (p : List (Token α)) : List α := p.map (fillToken c)

/-! ## Matching -/

theorem like_nil (text : List α) : like [] text = true ↔ text = [] := by
  rw [like, List.isEmpty_iff]

theorem like_any (p : List (Token α)) (text : List α) :
    like (.any :: p) text = true ↔ ∃ before after, text = before ++ after ∧ like p after = true := by
  rw [like, any_eq_true]
  simp only [mem_tails]
  apply Iff.intro
  · rintro ⟨after, ⟨before, rfl⟩, h⟩
    exact ⟨before, after, rfl, h⟩
  · rintro ⟨before, after, rfl, h⟩
    exact ⟨after, ⟨before, rfl⟩, h⟩

/-- **A pattern in two parts** matches a text in two parts. -/
theorem like_append (p q : List (Token α)) (text : List α) :
    like (p ++ q) text = true ↔
      ∃ before after, text = before ++ after ∧ like p before = true ∧ like q after = true := by
  induction p generalizing text with
  | nil =>
    apply Iff.intro
    · exact fun h => ⟨[], text, rfl, rfl, h⟩
    · rintro ⟨before, after, rfl, hbefore, hafter⟩
      rw [like_nil] at hbefore
      rw [hbefore]
      exact hafter
  | cons t p ih =>
    cases t with
    | any =>
      rw [cons_append, like_any]
      simp only [ih, like_any]
      apply Iff.intro
      · rintro ⟨first, -, rfl, before, after, rfl, hbefore, hafter⟩
        exact ⟨first ++ before, after, by rw [append_assoc], ⟨first, before, rfl, hbefore⟩, hafter⟩
      · rintro ⟨-, after, rfl, ⟨first, before, rfl, hbefore⟩, hafter⟩
        exact ⟨first, before ++ after, by rw [append_assoc], before, after, rfl, hbefore, hafter⟩
    | one =>
      cases text with
      | nil =>
        refine iff_of_false (by simp [like]) ?_
        rintro ⟨before, after, h, hbefore, -⟩
        rw [(append_eq_nil_iff.1 h.symm).1] at hbefore
        cases hbefore
      | cons c text =>
        rw [cons_append, like, ih]
        apply Iff.intro
        · rintro ⟨before, after, rfl, hbefore, hafter⟩
          exact ⟨c :: before, after, rfl, hbefore, hafter⟩
        · rintro ⟨before, after, h, hbefore, hafter⟩
          cases before with
          | nil => cases hbefore
          | cons c' before =>
            obtain ⟨-, rfl⟩ := List.cons.inj h
            exact ⟨before, after, rfl, hbefore, hafter⟩
    | char a =>
      cases text with
      | nil =>
        refine iff_of_false (by simp [like]) ?_
        rintro ⟨before, after, h, hbefore, -⟩
        rw [(append_eq_nil_iff.1 h.symm).1] at hbefore
        cases hbefore
      | cons c text =>
        rw [cons_append, like, Bool.and_eq_true, ih]
        apply Iff.intro
        · rintro ⟨hc, before, after, rfl, hbefore, hafter⟩
          refine ⟨c :: before, after, rfl, ?_, hafter⟩
          rw [like, hc, hbefore]
          rfl
        · rintro ⟨before, after, h, hbefore, hafter⟩
          cases before with
          | nil => cases hbefore
          | cons c' before =>
            obtain ⟨rfl, rfl⟩ := List.cons.inj h
            rw [like, Bool.and_eq_true] at hbefore
            exact ⟨hbefore.1, before, after, rfl, hbefore.2, hafter⟩

/-- a plain text matches itself alone -/
theorem like_plain (s text : List α) : like (plain s) text = true ↔ text = s := by
  induction s generalizing text with
  | nil => simp [plain, like]
  | cons a s ih =>
    cases text with
    | nil => simp [plain, like]
    | cons c text =>
      change (decide (a = c) && like (plain s) text) = true ↔ _
      rw [Bool.and_eq_true, ih, decide_eq_true_eq, List.cons.injEq, eq_comm]

/-- a pattern of `%` alone matches every text -/
theorem like_anys {p : List (Token α)} (hp : p ≠ []) (h : ∀ t ∈ p, t = .any) (text : List α) : like p text = true := by
  induction p generalizing text with
  | nil => exact absurd rfl hp
  | cons t p ih =>
    rw [h t mem_cons_self, like_any]
    cases p with
    | nil => exact ⟨text, [], by simp, rfl⟩
    | cons t' p =>
      exact ⟨[], text, rfl, ih (cons_ne_nil _ _) (fun x hx => h x (mem_cons_of_mem _ hx)) text⟩

omit [DecidableEq α] in
@[simp] theorem weight_any (p : List (Token α)) : weight (.any :: p) = weight p := by
  simp [weight]

omit [DecidableEq α] in
@[simp] theorem weight_one (p : List (Token α)) : weight (.one :: p) = weight p + 1 := by
  simp [weight]

omit [DecidableEq α] in
@[simp] theorem weight_char (a : α) (p : List (Token α)) : weight (.char a :: p) = weight p + 1 := by
  simp [weight]

omit [DecidableEq α] in
theorem weight_append (p q : List (Token α)) : weight (p ++ q) = weight p + weight q := countP_append

omit [DecidableEq α] in
theorem weight_plain (s : List α) : weight (plain s) = s.length := by
  induction s with
  | nil => rfl
  | cons a s ih =>
    change weight (.char a :: plain s) = _
    rw [weight_char, ih, length_cons]

/-- a matching text has a character for each token that stands for one -/
theorem weight_le_length {p : List (Token α)} {text : List α} (h : like p text = true) : weight p ≤ text.length := by
  induction p generalizing text with
  | nil => exact Nat.zero_le _
  | cons t p ih =>
    cases t with
    | any =>
      obtain ⟨before, after, rfl, hafter⟩ := (like_any p text).1 h
      have hle := ih hafter
      rw [weight_any, length_append]
      omega
    | one =>
      cases text with
      | nil => cases h
      | cons c text =>
        rw [weight_one]
        exact Nat.succ_le_succ (ih h)
    | char a =>
      cases text with
      | nil => cases h
      | cons c text =>
        rw [like, Bool.and_eq_true] at h
        rw [weight_char]
        exact Nat.succ_le_succ (ih h.2)

theorem like_fill (c : α) (p : List (Token α)) : like p (fill c p) = true := by
  induction p with
  | nil => rfl
  | cons t p ih =>
    cases t with
    | any => exact (like_any p _).2 ⟨[c], fill c p, rfl, ih⟩
    | one => exact ih
    | char a =>
      change (decide (a = a) && like p (fill c p)) = true
      rw [ih, decide_eq_true rfl]
      rfl

/-! ## Finding texts -/

/-- where a value is looked for -/
inductive Place
  | anywhere | start | stop
deriving DecidableEq

/-- the pattern that is made of a value's -/
def Place.pattern : Place → List (Token α) → List (Token α)
  | .anywhere, p => .any :: p ++ [.any]
  | .start, p => p ++ [.any]
  | .stop, p => .any :: p

def Place.Found (place : Place) (value text : List α) : Prop :=
  match place with
  | .anywhere => value <:+: text
  | .start => value <+: text
  | .stop => value <:+ text

/-- how much may stand before the value and behind it -/
def Place.Fits : Place → ℕ → ℕ → Prop
  | .anywhere, _, _ => True
  | .start, before, _ => before = 0
  | .stop, _, after => after = 0

/-- the pattern is a plain text, up to `%` where something may stand -/
def Place.Plain (place : Place) (p : List (Token α)) (s : List α) : Prop :=
  ∃ a b, p = a ++ plain s ++ b ∧ place.Fits a.length b.length ∧ (∀ t ∈ a, t = .any) ∧ ∀ t ∈ b, t = .any

section Finding

variable (place : Place)

omit [DecidableEq α] in
theorem found_iff (value text : List α) :
    place.Found value text ↔
      ∃ before after, text = before ++ value ++ after ∧ place.Fits before.length after.length := by
  cases place with
  | anywhere =>
    apply Iff.intro
    · rintro ⟨before, after, rfl⟩
      exact ⟨before, after, rfl, trivial⟩
    · rintro ⟨before, after, rfl, -⟩
      exact ⟨before, after, rfl⟩
  | start =>
    apply Iff.intro
    · rintro ⟨after, rfl⟩
      exact ⟨[], after, rfl, rfl⟩
    · rintro ⟨before, after, rfl, hfits⟩
      rw [eq_nil_of_length_eq_zero hfits]
      exact ⟨after, rfl⟩
  | stop =>
    apply Iff.intro
    · rintro ⟨before, rfl⟩
      exact ⟨before, [], by simp, rfl⟩
    · rintro ⟨before, after, rfl, hfits⟩
      rw [eq_nil_of_length_eq_zero hfits, append_nil]
      exact ⟨before, rfl⟩

omit [DecidableEq α] in
theorem found_refl (value : List α) : place.Found value value := by
  cases place with
  | anywhere => exact infix_refl value
  | start => exact prefix_refl value
  | stop => exact suffix_refl value

omit [DecidableEq α] in
theorem found_trans {u v w : List α} (huv : place.Found u v) (hvw : place.Found v w) : place.Found u w := by
  cases place with
  | anywhere => exact List.IsInfix.trans huv hvw
  | start => exact List.IsPrefix.trans huv hvw
  | stop => exact List.IsSuffix.trans huv hvw

omit [DecidableEq α] in
theorem found_length {u v : List α} (h : place.Found u v) : u.length ≤ v.length := by
  cases place with
  | anywhere => exact IsInfix.length_le h
  | start => exact IsPrefix.length_le h
  | stop => exact IsSuffix.length_le h

/-- a text matches in which the pattern of the value matches a part -/
theorem like_pattern (p : List (Token α)) (text : List α) :
    like (place.pattern p) text = true ↔ ∃ part, place.Found part text ∧ like p part = true := by
  cases place with
  | anywhere =>
    change like (.any :: p ++ [.any]) text = true ↔ _
    rw [like_append]
    simp only [like_any]
    apply Iff.intro
    · rintro ⟨-, after, rfl, ⟨before, part, rfl, hpart⟩, -⟩
      exact ⟨part, ⟨before, after, rfl⟩, hpart⟩
    · rintro ⟨part, ⟨before, after, rfl⟩, hpart⟩
      exact ⟨before ++ part, after, rfl, ⟨before, part, rfl, hpart⟩, after, [], by simp, rfl⟩
  | start =>
    change like (p ++ [.any]) text = true ↔ _
    rw [like_append]
    apply Iff.intro
    · rintro ⟨part, after, rfl, hpart, -⟩
      exact ⟨part, ⟨after, rfl⟩, hpart⟩
    · rintro ⟨part, ⟨after, rfl⟩, hpart⟩
      exact ⟨part, after, rfl, hpart, like_anys (cons_ne_nil _ _) (by simp) after⟩
  | stop =>
    change like (.any :: p) text = true ↔ _
    rw [like_any]
    apply Iff.intro
    · rintro ⟨before, part, rfl, hpart⟩
      exact ⟨part, ⟨before, rfl⟩, hpart⟩
    · rintro ⟨part, ⟨before, rfl⟩, hpart⟩
      exact ⟨before, part, rfl, hpart⟩

variable {place}

/-- **A plain text** is found as it is. -/
theorem like_pattern_of_plain {p : List (Token α)} {s : List α} (h : place.Plain p s) (text : List α) :
    like (place.pattern p) text = true ↔ place.Found s text := by
  obtain ⟨a, b, rfl, hfits, ha, hb⟩ := h
  have hanys : ∀ l : List (Token α), (∀ t ∈ l, t = .any) → ∀ t ∈ l ++ [.any], t = .any := by
    intro l hl t ht
    rcases mem_append.1 ht with ht | ht
    · exact hl t ht
    · exact mem_singleton.1 ht
  have hcons : ∀ l : List (Token α), (∀ t ∈ l, t = .any) → ∀ t ∈ .any :: l, t = .any := by
    intro l hl t ht
    rcases mem_cons.1 ht with rfl | ht
    · rfl
    · exact hl t ht
  have hbefore := like_anys (cons_ne_nil _ _) (hcons a ha)
  have hafter := like_anys (by simp : b ++ [.any] ≠ []) (hanys b hb)
  have hmiddle : ∀ q r : List (Token α), like (q ++ (plain s ++ r)) text = true ↔ ∃ before after,
      text = before ++ s ++ after ∧ like q before = true ∧ like r after = true := by
    intro q r
    simp only [like_append, like_plain]
    apply Iff.intro
    · rintro ⟨before, -, rfl, hq, -, after, rfl, rfl, hr⟩
      exact ⟨before, after, by rw [append_assoc], hq, hr⟩
    · rintro ⟨before, after, rfl, hq, hr⟩
      exact ⟨before, s ++ after, by rw [append_assoc], hq, s, after, rfl, rfl, hr⟩
  rw [found_iff]
  cases place with
  | anywhere =>
    have hpattern : Place.anywhere.pattern (a ++ plain s ++ b) = (.any :: a) ++ (plain s ++ (b ++ [.any])) := by
      simp [Place.pattern]
    rw [hpattern, hmiddle]
    simp only [hbefore, hafter, and_true, Place.Fits]
  | start =>
    obtain rfl := eq_nil_of_length_eq_zero hfits
    have hpattern : Place.start.pattern ([] ++ plain s ++ b) = [] ++ (plain s ++ (b ++ [.any])) := by
      simp [Place.pattern]
    rw [hpattern, hmiddle]
    simp only [hafter, and_true, like_nil, Place.Fits, length_eq_zero_iff]
  | stop =>
    obtain rfl := eq_nil_of_length_eq_zero hfits
    have hpattern : Place.stop.pattern (a ++ plain s ++ []) = (.any :: a) ++ (plain s ++ []) := by
      simp [Place.pattern]
    rw [hpattern, hmiddle]
    simp only [hbefore, true_and, like_nil, Place.Fits, length_eq_zero_iff]

omit [DecidableEq α] in
/-- what a filled pattern consists of around a long part without the filling: the part is plain, the rest is `%` -/
theorem plain_of_fill {c : α} {p : List (Token α)} {v : List α} (hfound : place.Found v (fill c p)) (hc : c ∉ v)
    (hweight : weight p ≤ v.length) : place.Plain p v := by
  obtain ⟨before, after, hfill, hfits⟩ := (found_iff place v _).1 hfound
  obtain ⟨ab, b, rfl, hab, hb⟩ := map_eq_append_iff.1 hfill
  obtain ⟨a, m, rfl, ha, hv⟩ := map_eq_append_iff.1 hab
  have hplain : m = plain v := by
    subst hv
    rw [plain, List.map_map]
    conv_lhs => rw [← List.map_id m]
    apply map_congr_left
    intro t ht
    cases t with
    | any => exact absurd (mem_map.2 ⟨_, ht, rfl⟩) hc
    | one => exact absurd (mem_map.2 ⟨_, ht, rfl⟩) hc
    | char x => rfl
  rw [hplain] at hweight ⊢
  rw [weight_append, weight_append, weight_plain] at hweight
  have hany : ∀ l : List (Token α), weight l = 0 → ∀ t ∈ l, t = .any := by
    intro l hl t ht
    have h := countP_eq_zero.1 hl t ht
    cases t with
    | any => rfl
    | one => exact absurd rfl h
    | char x => exact absurd rfl h
  refine ⟨a, b, rfl, ?_, hany a (by omega), hany b (by omega)⟩
  rw [← ha, ← hb, length_map, length_map] at hfits
  exact hfits

/-- **Several values**: a pattern finds the texts in which one of them is exactly where it is one of them, up to `%` at
its free ends, and that one is found in every other; where some character is in none of the values. -/
theorem like_values_iff {p : List (Token α)} {values : List (List α)} (hspare : ∃ c, ∀ v ∈ values, c ∉ v) :
    (∀ text, like (place.pattern p) text = true ↔ ∃ v ∈ values, place.Found v text) ↔
      ∃ s ∈ values, place.Plain p s ∧ ∀ v ∈ values, place.Found s v := by
  apply Iff.intro
  · intro h
    obtain ⟨c, hc⟩ := hspare
    obtain ⟨s, hs, hfound⟩ := (h (fill c p)).1 ((like_pattern place p _).2 ⟨_, found_refl place _, like_fill c p⟩)
    have hweight : weight p ≤ s.length := by
      obtain ⟨part, hpart, hlike⟩ := (like_pattern place p s).1 ((h s).2 ⟨s, hs, found_refl place s⟩)
      exact (weight_le_length hlike).trans (found_length place hpart)
    have hplain := plain_of_fill hfound (hc s hs) hweight
    exact ⟨s, hs, hplain, fun v hv => (like_pattern_of_plain hplain v).1 ((h v).2 ⟨v, hv, found_refl place v⟩)⟩
  · rintro ⟨s, hs, hplain, hall⟩ text
    rw [like_pattern_of_plain hplain]
    exact ⟨fun h => ⟨s, hs, h⟩, fun ⟨v, hv, h⟩ => found_trans place (hall v hv) h⟩

end Finding

end Langbridge.Core.Like
