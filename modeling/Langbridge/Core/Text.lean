/-
The text operations a Python program relies on and that depend on Unicode tables: `str.lower`, `str.strip`, `repr` of
a string and the regular-expression classes `\w` and `\s`. They are a class, so that every result holds for the real
tables; the laws are the ones the documentation gives. `Ascii` is the instance on ASCII text that concrete runs use.
-/
import Mathlib.Tactic

namespace Langbridge.Core

open List

instance lawfulBEq_chars : LawfulBEq (List Char) := inferInstance

/-- `str.lower`, `str.strip`, `repr`, `\w` and `\s` -/
class PyText where
  lower : String → String
  strip : String → String
  quote : String → String
  isWord : Char → Bool
  isSpace : Char → Bool
  lower_empty : lower "" = ""
  strip_empty : strip "" = ""
  lower_lower : ∀ s, lower (lower s) = lower s
  strip_strip : ∀ s, strip (strip s) = strip s
  strip_lower : ∀ s, strip (lower s) = lower (strip s)
  /-- an underscore ends the context that the lower case of a final sigma looks at -/
  lower_underscore : ∀ s t, lower (s ++ "_" ++ t) = lower s ++ "_" ++ lower t

namespace PyText

attribute [simp] lower_empty strip_empty lower_lower strip_strip strip_lower

variable [PyText]

/-- `value.strip().lower()` -/
def norm (s : String) : String := lower (strip s)

@[simp] theorem norm_norm (s : String) : norm (norm s) = norm s := by
  simp [norm]

@[simp] theorem norm_lower (s : String) : norm (lower s) = norm s := by
  simp [norm]

@[simp] theorem norm_empty : norm "" = "" := by simp [norm]

end PyText

/-- texts whose words of lower-case ASCII letters `str.strip` and `str.lower` leave as they are -/
class PyWords extends PyText where
  norm_word : ∀ s : String, s.toList.all Char.isLower = true → PyText.norm s = s

/-- texts that `str.strip` makes no character up for -/
class PyTrim extends PyText where
  mem_strip : ∀ s c, c ∈ (PyText.strip s).toList → c ∈ s.toList

/-- texts of visible ASCII characters, which `str.strip` leaves as they are -/
class PyGraph extends PyWords where
  strip_graph : ∀ s : String, (∀ c ∈ s.toList, 33 ≤ c.toNat ∧ c.toNat ≤ 126) → PyText.strip s = s

/-- texts of ASCII characters without capitals, which `str.lower` leaves as they are -/
class PySmall extends PyGraph where
  lower_small : ∀ s : String, (∀ c ∈ s.toList, c.toNat < 128 ∧ c.isUpper = false) → PyText.lower s = s

/-- `str.upper`, which leaves texts of ASCII characters without small letters as they are -/
class PyCase extends PySmall where
  upper : String → String
  upper_large : ∀ s : String, (∀ c ∈ s.toList, c.toNat < 128 ∧ c.isLower = false) → upper s = s

/-- `str.casefold`, which is for caseless matching: texts that differ in letter case have one folding -/
class PyFold extends PyText where
  casefold : String → String
  casefold_casefold : ∀ s, casefold (casefold s) = casefold s
  casefold_lower : ∀ s, casefold (PyText.lower s) = casefold s
  strip_casefold : ∀ s, PyText.strip (casefold s) = casefold (PyText.strip s)
  casefold_ascii : ∀ s : String, (∀ c ∈ s.toList, c.toNat < 128) → casefold s = PyText.lower s
  casefold_ne_empty : ∀ s, s ≠ "" → casefold s ≠ ""
  at_casefold : ∀ s : String, '@' ∈ (casefold s).toList ↔ '@' ∈ s.toList

variable {c : Char}

/-- the code points of the ASCII letters and digits -/
theorem alphanum_bounds (h : c.isAlphanum = true) : 48 ≤ c.toNat ∧ c.toNat ≤ 122 := by
  rcases Bool.or_eq_true_iff.1 h with h | h
  · rcases Bool.or_eq_true_iff.1 h with h | h
    · have h := of_decide_eq_true h
      exact ⟨le_trans (by decide) h.1, le_trans h.2 (by decide)⟩
    · have h := Bool.and_eq_true_iff.1 h
      exact ⟨le_trans (by decide) (of_decide_eq_true h.1), of_decide_eq_true h.2⟩
  · have h := Bool.and_eq_true_iff.1 h
    exact ⟨of_decide_eq_true h.1, le_trans (of_decide_eq_true h.2) (by decide)⟩

/-- a property of the members of a list, from its check of each -/
theorem forall_mem_of_all {α : Type} {p : α → Prop} [DecidablePred p] {l : List α}
    (h : (l.all fun a => decide (p a)) = true) : ∀ a ∈ l, p a := by
  simpa using h

/-! ## Exceptions -/

/-- a computation that does not raise has gone through its parts -/
theorem of_bind_ok {ε α β : Type} {x : Except ε α} {f : α → Except ε β} {b : β} (h : x >>= f = .ok b) :
    ∃ a, x = .ok a ∧ f a = .ok b := by
  cases x with
  | error e => cases h
  | ok a => exact ⟨a, rfl, h⟩

theorem exists_ok_of_isSome {ε α : Type} {x : Except ε α} (h : x.toOption.isSome = true) : ∃ a, x = .ok a := by
  cases x with
  | error e => cases h
  | ok a => exact ⟨a, rfl⟩

/-- a list of computations that do not raise does not raise -/
theorem mapM_ok {ε α β : Type} (f : α → Except ε β) (l : List α) (h : ∀ a ∈ l, ∃ b, f a = .ok b) :
    ∃ bs, l.mapM f = .ok bs := by
  induction l with
  | nil => exact ⟨[], rfl⟩
  | cons a l ih =>
    obtain ⟨b, hb⟩ := h a mem_cons_self
    obtain ⟨bs, hbs⟩ := ih fun a' ha' => h a' (mem_cons_of_mem a ha')
    refine ⟨b :: bs, ?_⟩
    rw [mapM_cons, hb, hbs]
    rfl

/-- computations that all go through, with their results -/
theorem forall₂_of_mapM {ε α β : Type} {f : α → Except ε β} {l : List α} {r : List β} (h : l.mapM f = .ok r) :
    List.Forall₂ (fun a b => f a = .ok b) l r := by
  induction l generalizing r with
  | nil =>
    cases h
    exact .nil
  | cons a l ih =>
    rw [mapM_cons] at h
    obtain ⟨b, hb, h⟩ := of_bind_ok h
    obtain ⟨bs, hbs, h⟩ := of_bind_ok h
    cases h
    exact .cons hb (ih hbs)

theorem mapM_of_forall₂ {ε α β : Type} {f : α → Except ε β} {l : List α} {r : List β}
    (h : List.Forall₂ (fun a b => f a = .ok b) l r) : l.mapM f = .ok r := by
  induction h with
  | nil => rfl
  | cons hab _ ih =>
    rw [mapM_cons, hab, ih]
    rfl

/-- what related lists have in common -/
theorem map_eq_of_forall₂ {α β γ : Type} {R : α → β → Prop} {f : α → γ} {g : β → γ} (hR : ∀ a b, R a b → g b = f a)
    {l : List α} {r : List β} (h : List.Forall₂ R l r) : r.map g = l.map f := by
  induction h with
  | nil => rfl
  | cons hab _ ih => rw [map_cons, map_cons, hR _ _ hab, ih]

theorem forall₂_exists_left {α β : Type} {R : α → β → Prop} {l : List α} {l' : List β} (h : List.Forall₂ R l l')
    (b : β) (hb : b ∈ l') : ∃ a ∈ l, R a b := by
  induction h with
  | nil => cases hb
  | cons hr _ ih =>
    rcases mem_cons.1 hb with rfl | hb
    · exact ⟨_, mem_cons_self, hr⟩
    · obtain ⟨a, ha, hab⟩ := ih hb
      exact ⟨a, mem_cons_of_mem _ ha, hab⟩

theorem forall₂_exists_right {α β : Type} {R : α → β → Prop} {l : List α} {l' : List β} (h : List.Forall₂ R l l')
    (a : α) (ha : a ∈ l) : ∃ b ∈ l', R a b := forall₂_exists_left h.flip a ha

/-- a list of optional results -/
theorem mapM_some_iff {α β : Type} {f : α → Option β} {l : List α} {r : List β} :
    l.mapM f = some r ↔ List.Forall₂ (fun a b => f a = some b) l r := by
  induction l generalizing r with
  | nil => cases r <;> simp
  | cons a l ih =>
    rw [mapM_cons, List.forall₂_cons_left_iff, Option.bind_eq_bind, Option.bind_eq_some_iff]
    simp only [Option.bind_eq_bind, Option.bind_eq_some_iff, ih, Option.pure_def, Option.some.injEq]
    grind

theorem mem_mapM {ε α β : Type} {f : α → Except ε β} {l : List α} {r : List β} (h : l.mapM f = .ok r) (b : β) :
    b ∈ r ↔ ∃ a ∈ l, f a = .ok b := by
  have hall := forall₂_of_mapM h
  constructor
  · exact forall₂_exists_left hall b
  · rintro ⟨a, ha, hab⟩
    obtain ⟨b', hb', hab'⟩ := forall₂_exists_right hall a ha
    rw [hab] at hab'
    exact Except.ok.inj hab' ▸ hb'

theorem exists_mapM_iff {ε α β : Type} {f : α → Except ε β} {l : List α} :
    (∃ r, l.mapM f = .ok r) ↔ ∀ a ∈ l, ∃ b, f a = .ok b := by
  constructor
  · rintro ⟨r, hr⟩ a ha
    obtain ⟨b, -, hab⟩ := forall₂_exists_right (forall₂_of_mapM hr) a ha
    exact ⟨b, hab⟩
  · exact mapM_ok f l

theorem map_eq_ok_iff {ε α β : Type} {x : Except ε α} {f : α → β} {b : β} :
    x.map f = .ok b ↔ ∃ a, x = .ok a ∧ f a = b := by
  cases x with
  | error e => exact iff_of_false (fun h => nomatch h) fun ⟨_, h, _⟩ => nomatch h
  | ok a =>
    constructor
    · exact fun h => ⟨a, rfl, Except.ok.inj h⟩
    · rintro ⟨a', ha', rfl⟩
      rw [Except.ok.inj ha']
      rfl

/-- what computations of related elements have in common -/
theorem map_mapM {ε α β γ δ : Type} {f : α → Except ε β} {g : γ → Except ε δ} {u : β → δ} {k : α → γ}
    (h : ∀ a, (f a).map u = g (k a)) {l : List α} : (l.mapM f).map (List.map u) = (l.map k).mapM g := by
  induction l with
  | nil => rfl
  | cons a l ih =>
    rw [mapM_cons, map_cons, mapM_cons, ← h a, ← ih]
    cases f a with
    | error e => rfl
    | ok b => cases l.mapM f <;> rfl

theorem eq_singleton_iff {α : Type} {l : List α} (hl : l.Nodup) {a : α} : l = [a] ↔ a ∈ l ∧ ∀ b ∈ l, b = a := by
  constructor
  · rintro rfl
    exact ⟨mem_cons_self, fun b hb => mem_singleton.1 hb⟩
  · rintro ⟨hmem, hall⟩
    cases l with
    | nil => cases hmem
    | cons b l =>
      obtain rfl := hall b mem_cons_self
      rw [nodup_cons] at hl
      cases l with
      | nil => rfl
      | cons b' l =>
        obtain rfl := hall b' (mem_cons_of_mem _ mem_cons_self)
        exact absurd mem_cons_self hl.1

/-! ## Numbers -/

theorem repr_digits (n : ℕ) : ∀ c ∈ (toString n).toList, c.isDigit = true := by
  intro c hc
  change c ∈ n.repr.toList at hc
  rw [Nat.toList_repr] at hc
  exact Nat.isDigit_of_mem_toDigits (by decide) (by decide) hc

theorem toString_nat_injective {m n : ℕ} (h : toString m = toString n) : m = n := by
  change Nat.repr m = Nat.repr n at h
  rw [Nat.repr_eq_ofList_toDigits, Nat.repr_eq_ofList_toDigits, String.ofList_inj] at h
  rw [← Nat.ofDigitChars_toDigits (b := 10) (n := m) (by decide) (by decide), h,
    Nat.ofDigitChars_toDigits (by decide) (by decide)]

/-! ## Removing a text -/

/-- drop every occurrence of a text, once the next `skip` characters are dropped -/
def removeFrom (pat : List Char) : ℕ → List Char → List Char
  | _, [] => []
  | skip + 1, _ :: cs => removeFrom pat skip cs
  | 0, c :: cs => if pat.isPrefixOf (c :: cs) then removeFrom pat (pat.length - 1) cs else c :: removeFrom pat 0 cs

/-- `text.replace(pat, "")` -/
def removeAll (pat : String) (s : List Char) : List Char := removeFrom pat.toList 0 s

variable {pat : List Char}

/-- a text holds no occurrence of one whose character `c` it has not -/
theorem removeFrom_of_not_mem (hc : c ∈ pat) {s : List Char} (h : c ∉ s) : removeFrom pat 0 s = s := by
  induction s with
  | nil => rfl
  | cons d s ih =>
    have hpre : pat.isPrefixOf (d :: s) = false := by
      by_contra hne
      exact h ((List.isPrefixOf_iff_prefix.1 (by simpa using hne)).subset hc)
    rw [removeFrom, hpre, if_neg (by simp), ih fun hmem => h (mem_cons_of_mem d hmem)]

theorem mem_of_mem_removeFrom {n : ℕ} {s : List Char} (h : c ∈ removeFrom pat n s) : c ∈ s := by
  fun_induction removeFrom pat n s with
  | case1 => exact h
  | case2 n d s ih => exact mem_cons_of_mem d (ih h)
  | case3 d s _ ih => exact mem_cons_of_mem d (ih h)
  | case4 d s _ ih =>
    rcases mem_cons.1 h with rfl | h
    · exact mem_cons_self
    · exact mem_cons_of_mem d (ih h)

/-- what stands before the only `c` of an occurrence is kept -/
theorem removeFrom_append {pat l s : List Char}
    (hpat : ∀ k, 0 < k → k ≤ l.length → ¬ pat.isPrefixOf (l.drop (l.length - k) ++ s)) :
    removeFrom pat 0 (l ++ s) = l ++ removeFrom pat 0 s := by
  induction l with
  | nil => rfl
  | cons d l ih =>
    have hd := hpat (l.length + 1) (Nat.succ_pos _) le_rfl
    rw [length_cons, Nat.sub_self, drop_zero, cons_append] at hd
    rw [cons_append, removeFrom, if_neg hd, ih fun k hk hle => ?_, cons_append]
    have hle' : k ≤ (d :: l).length := Nat.le_succ_of_le hle
    have h := hpat k hk hle'
    rwa [show (d :: l).length - k = (l.length - k) + 1 by simp only [length_cons]; omega, drop_succ_cons] at h

theorem removeFrom_skip (pat l s : List Char) : removeFrom pat l.length (l ++ s) = removeFrom pat 0 s := by
  induction l with
  | nil => rfl
  | cons d l ih => exact ih

/-- the occurrence a text begins with -/
theorem removeFrom_prefix (hne : pat ≠ []) (s : List Char) : removeFrom pat 0 (pat ++ s) = removeFrom pat 0 s := by
  obtain ⟨d, pat', rfl⟩ := exists_cons_of_ne_nil hne
  have hpre : (d :: pat').isPrefixOf (d :: (pat' ++ s)) = true := isPrefixOf_iff_prefix.2 ⟨s, rfl⟩
  rw [cons_append, removeFrom, if_pos hpre]
  exact removeFrom_skip (d :: pat') pat' s

/-! ## Trimming a list at both ends -/

section Trim

variable {α : Type} (p : α → Bool)

/-- drop the elements satisfying `p` at both ends -/
def trim (l : List α) : List α := ((l.dropWhile p).reverse.dropWhile p).reverse

/-- a list whose first and last elements do not satisfy `p` -/
structure Trimmed (l : List α) : Prop where
  head : ∀ a ∈ l.head?, p a = false
  last : ∀ a ∈ l.getLast?, p a = false

theorem dropWhile_of_head (l : List α) (h : ∀ a ∈ l.head?, p a = false) : l.dropWhile p = l := by
  cases l with
  | nil => rfl
  | cons a l =>
    have ha : p a = false := h a rfl
    simp [List.dropWhile, ha]

theorem head_dropWhile (l : List α) : ∀ a ∈ (l.dropWhile p).head?, p a = false := by
  induction l with
  | nil => simp
  | cons x l ih =>
    intro a ha
    by_cases hx : p x = true
    · simp only [List.dropWhile, hx] at ha
      exact ih a ha
    · simp only [Bool.not_eq_true] at hx
      simp only [List.dropWhile, hx, head?_cons, Option.mem_def, Option.some.injEq] at ha
      exact ha ▸ hx

theorem trim_of_trimmed (l : List α) (h : Trimmed p l) : trim p l = l := by
  have h1 : l.dropWhile p = l := dropWhile_of_head p l h.head
  have h2 : l.reverse.dropWhile p = l.reverse := by
    refine dropWhile_of_head p _ fun a ha => h.last a ?_
    rwa [head?_reverse] at ha
  rw [trim, h1, h2, reverse_reverse]

theorem trim_trimmed (l : List α) : Trimmed p (trim p l) := by
  set m := l.dropWhile p with hm
  refine ⟨?_, fun a ha => ?_⟩
  · intro a ha
    have hpre : (m.reverse.dropWhile p).reverse <+: m := by
      rw [← reverse_suffix, reverse_reverse]
      exact dropWhile_suffix p
    obtain ⟨t, ht⟩ := hpre
    refine head_dropWhile p l a ?_
    rw [← hm, ← ht]
    rw [Option.mem_def, trim, ← hm] at ha
    rw [head?_append, ha]
    rfl
  · rw [trim, getLast?_reverse] at ha
    exact head_dropWhile p _ a ha

/-- trimming keeps what is not trimmed -/
theorem mem_trim {a : α} {l : List α} (ha : a ∈ l) (hp : p a = false) : a ∈ trim p l := by
  have hkeep : ∀ l : List α, a ∈ l → a ∈ l.dropWhile p := by
    intro l hl
    rw [← takeWhile_append_dropWhile (p := p) (l := l)] at hl
    refine (mem_append.1 hl).resolve_left fun h => ?_
    rw [all_eq_true.1 all_takeWhile a h] at hp
    cases hp
  rw [trim, mem_reverse]
  exact hkeep _ (mem_reverse.2 (hkeep l ha))

theorem mem_of_mem_trim {a : α} {l : List α} (h : a ∈ trim p l) : a ∈ l := by
  rw [trim, mem_reverse] at h
  have hreverse : a ∈ (l.dropWhile p).reverse := (dropWhile_suffix p).subset h
  exact (dropWhile_suffix p).subset (mem_reverse.1 hreverse)

/-- trimming commutes with a map that keeps what is trimmed -/
theorem map_trim {β : Type} (q : β → Bool) (f : α → β) (hf : ∀ a, q (f a) = p a) (l : List α) :
    (trim p l).map f = trim q (l.map f) := by
  have hp : q ∘ f = p := funext hf
  rw [trim, trim, dropWhile_map, hp, ← map_reverse, dropWhile_map, hp, map_reverse]

theorem dropWhile_parts (l : List α) : ∃ before, l = before ++ l.dropWhile p ∧ ∀ a ∈ before, p a = true :=
  ⟨l.takeWhile p, takeWhile_append_dropWhile.symm, fun a ha => all_eq_true.1 all_takeWhile a ha⟩

/-- what is trimmed at the ends -/
theorem trim_parts (l : List α) :
    ∃ before after, l = before ++ trim p l ++ after ∧ ∀ a ∈ before ++ after, p a = true := by
  obtain ⟨before, hbefore, hb⟩ := dropWhile_parts p l
  obtain ⟨after, hafter, ha⟩ := dropWhile_parts p (l.dropWhile p).reverse
  refine ⟨before, after.reverse, ?_, fun a hmem => ?_⟩
  · have hrest : l.dropWhile p = trim p l ++ after.reverse := by
      rw [trim, ← reverse_append, ← hafter, reverse_reverse]
    rw [append_assoc, ← hrest]
    exact hbefore
  · rcases mem_append.1 hmem with hmem | hmem
    · exact hb a hmem
    · exact ha a (mem_reverse.1 hmem)

/-- two lists before a trimmed one and before the whole one give the same only if nothing is trimmed -/
theorem append_trim_inj {x y l : List α} {a : α} (ha : p a = false) (hne : trim p l ≠ [])
    (h : x ++ a :: trim p l = y ++ a :: l) : trim p l = l ∧ x = y := by
  obtain ⟨before, after, hl, hspace⟩ := trim_parts p l
  have htrimmed := trim_trimmed p l
  generalize trim p l = s at *
  subst hl
  have hafter : after = [] := by
    by_contra hsome
    obtain ⟨init, last, rfl⟩ := (eq_nil_or_concat' _).resolve_left hsome
    obtain ⟨front, end', rfl⟩ := (eq_nil_or_concat' _).resolve_left hne
    have hlast := congrArg List.getLast? h
    obtain rfl : end' = last := by simpa [getLast?_cons, getLast?_append] using hlast
    have hfalse := htrimmed.last end' (by simp)
    rw [hspace end' (by simp)] at hfalse
    cases hfalse
  subst hafter
  have hbefore : before = [] := by
    by_contra hsome
    obtain ⟨init, last, rfl⟩ := (eq_nil_or_concat' _).resolve_left hsome
    have hcancel : x ++ [a] = y ++ a :: (init ++ [last]) := by
      have hsame : (x ++ [a]) ++ s = (y ++ a :: (init ++ [last])) ++ s := by simpa using h
      exact append_cancel_right hsame
    have hlast := congrArg List.getLast? hcancel
    obtain rfl : a = last := by simpa [getLast?_cons, getLast?_append] using hlast
    rw [hspace a (by simp)] at ha
    cases ha
  subst hbefore
  simp only [nil_append, append_nil] at h ⊢
  exact ⟨trivial, append_cancel_right h⟩

end Trim

/-- `str.strip`, which takes the characters of `\s` from both ends; visible ASCII characters are none -/
class PyStrip extends PyGraph where
  strip_eq : ∀ s : String, PyText.strip s = String.ofList (trim PyText.isSpace s.toList)
  isSpace_graph : ∀ c : Char, 33 ≤ c.toNat → c.toNat ≤ 126 → PyText.isSpace c = false

namespace PyStrip

variable [PyStrip]

theorem toList_strip (s : String) : (PyText.strip s).toList = trim PyText.isSpace s.toList := by
  rw [strip_eq, String.toList_ofList]

/-- a visible character stays -/
theorem mem_strip {s : String} (hc : c ∈ s.toList) (h : 33 ≤ c.toNat ∧ c.toNat ≤ 126) :
    c ∈ (PyText.strip s).toList := by
  rw [toList_strip]
  exact mem_trim _ hc (isSpace_graph c h.1 h.2)

end PyStrip

/-- the regular-expression classes: `\w` on ASCII texts, and no character is of both -/
class PyClasses extends PyStrip where
  isWord_ascii : ∀ c : Char, c.toNat < 128 → PyText.isWord c = (c.isAlphanum || c = '_')
  isWord_space : ∀ c : Char, PyText.isSpace c = true → PyText.isWord c = false

/-! ## ASCII text -/

namespace Ascii

def lower (s : String) : String := String.ofList (s.toList.map Char.toLower)

/-- the ASCII characters `str.strip` removes -/
def isSpace (c : Char) : Bool :=
  c = ' ' || c = '\t' || c = '\n' || c = '\r' || c = '\x0b' || c = '\x0c'

def strip (s : String) : String := String.ofList (trim isSpace s.toList)

def isWord (c : Char) : Bool := c.isAlphanum || c = '_'

/-- `repr` of a string: single quotes unless the text has one and no double quote -/
def quote (s : String) : String :=
  let q := if '\'' ∈ s.toList ∧ '"' ∉ s.toList then '"' else '\''
  let escape : Char → List Char := fun c =>
    if c = q ∨ c = '\\' then ['\\', c]
    else if c = '\n' then ['\\', 'n']
    else if c = '\t' then ['\\', 't']
    else if c = '\r' then ['\\', 'r']
    else [c]
  String.ofList (q :: s.toList.flatMap escape ++ [q])

/-- the code points of the upper-case ASCII letters -/
theorem toLower_eq (c : Char) (h : ¬(65 ≤ c.toNat ∧ c.toNat ≤ 90)) : c.toLower = c := by
  unfold Char.toLower
  split_ifs with hc
  · exact absurd ⟨hc.1, hc.2⟩ h
  · rfl

theorem toNat_toLower (c : Char) (h : 65 ≤ c.toNat ∧ c.toNat ≤ 90) : c.toLower.toNat = c.toNat + 32 := by
  have hc : c.val ≥ 'A'.val ∧ c.val ≤ 'Z'.val := ⟨h.1, h.2⟩
  have hlt : c.val.toNat ≤ 90 := h.2
  unfold Char.toLower
  rw [dif_pos hc]
  change (c.val.toNat + 32) % 2 ^ 32 = c.val.toNat + 32
  omega

theorem toLower_toLower (c : Char) : c.toLower.toLower = c.toLower := by
  by_cases h : 65 ≤ c.toNat ∧ c.toNat ≤ 90
  · refine toLower_eq _ ?_
    rw [toNat_toLower c h]
    omega
  · rw [toLower_eq c h, toLower_eq c h]

theorem isSpace_toLower (c : Char) : isSpace c.toLower = isSpace c := by
  by_cases h : 65 ≤ c.toNat ∧ c.toNat ≤ 90
  · have hspace : ∀ d : Char, 65 ≤ d.toNat → isSpace d = false := by
      intro d hd
      simp only [isSpace, Bool.or_eq_false_iff, decide_eq_false_iff_not]
      refine ⟨⟨⟨⟨⟨?_, ?_⟩, ?_⟩, ?_⟩, ?_⟩, ?_⟩ <;> (rintro rfl; revert hd; decide)
    rw [hspace c h.1, hspace _ (by rw [toNat_toLower c h]; omega)]
  · rw [toLower_eq c h]

theorem lower_lower (s : String) : lower (lower s) = lower s := by
  unfold lower
  rw [String.toList_ofList, List.map_map]
  congr 2
  funext c
  exact toLower_toLower c

theorem strip_strip (s : String) : strip (strip s) = strip s := by
  simp only [strip, String.toList_ofList, trim_of_trimmed _ _ (trim_trimmed isSpace s.toList)]

theorem strip_lower (s : String) : strip (lower s) = lower (strip s) := by
  simp only [strip, lower, String.toList_ofList, ← map_trim isSpace isSpace Char.toLower isSpace_toLower]

theorem lower_underscore (s t : String) : lower (s ++ "_" ++ t) = lower s ++ "_" ++ lower t := by
  have h : "_".toList.map Char.toLower = "_".toList := by decide
  simp only [lower, String.toList_append, map_append, h, String.ofList_append, String.ofList_toList]

/-- the instance on ASCII text -/
scoped instance : PyText where
  lower := lower
  strip := strip
  quote := quote
  isWord := isWord
  isSpace := isSpace
  lower_empty := by decide
  strip_empty := by decide
  lower_lower := lower_lower
  strip_strip := strip_strip
  strip_lower := strip_lower
  lower_underscore := lower_underscore

theorem isUpper_iff : c.isUpper = true ↔ 65 ≤ c.toNat ∧ c.toNat ≤ 90 := decide_eq_true_iff

theorem isLower_iff : c.isLower = true ↔ 97 ≤ c.toNat ∧ c.toNat ≤ 122 :=
  Bool.and_eq_true_iff.trans (and_congr decide_eq_true_iff decide_eq_true_iff)

theorem isAlpha_eq : c.isAlpha = (c.isUpper || c.isLower) := rfl

theorem isSpace_of_le (h : 33 ≤ c.toNat) : isSpace c = false := by
  simp only [isSpace, Bool.or_eq_false_iff, decide_eq_false_iff_not]
  refine ⟨⟨⟨⟨⟨?_, ?_⟩, ?_⟩, ?_⟩, ?_⟩, ?_⟩ <;> (rintro rfl; revert h; decide)

/-- a text without blanks has none to strip -/
theorem strip_of_noSpace (s : String) (h : ∀ c ∈ s.toList, isSpace c = false) : strip s = s := by
  have htrim : Trimmed isSpace s.toList :=
    ⟨fun a ha => h a (mem_of_mem_head? ha), fun a ha => h a (mem_of_getLast? ha)⟩
  rw [strip, trim_of_trimmed _ _ htrim, String.ofList_toList]

theorem norm_word (s : String) (h : s.toList.all Char.isLower = true) : lower (strip s) = s := by
  rw [all_eq_true] at h
  have hspace : ∀ c ∈ s.toList, isSpace c = false := fun c hc => isSpace_of_le (by
    have hbounds := isLower_iff.1 (h c hc)
    omega)
  have hlower : s.toList.map Char.toLower = s.toList := by
    calc s.toList.map Char.toLower = s.toList.map id := by
          refine map_congr_left fun c hc => toLower_eq c ?_
          have hbounds := isLower_iff.1 (h c hc)
          omega
      _ = s.toList := List.map_id _
  rw [strip_of_noSpace s hspace, lower, hlower, String.ofList_toList]

scoped instance : PyWords where
  norm_word := norm_word

scoped instance : PyGraph where
  strip_graph s h := strip_of_noSpace s fun c hc => isSpace_of_le (h c hc).1

theorem lower_small (s : String) (h : ∀ c ∈ s.toList, c.isUpper = false) : lower s = s := by
  have hmap : s.toList.map Char.toLower = s.toList.map id := by
    refine map_congr_left fun c hc => toLower_eq c fun hbounds => ?_
    have hupper := isUpper_iff.2 hbounds
    rw [h c hc] at hupper
    cases hupper
  rw [lower, hmap, List.map_id, String.ofList_toList]

scoped instance : PySmall where
  lower_small s h := lower_small s fun c hc => (h c hc).2

theorem upper_large (s : String) (h : ∀ c ∈ s.toList, c.isLower = false) :
    String.ofList (s.toList.map Char.toUpper) = s := by
  have hmap : s.toList.map Char.toUpper = s.toList.map id := by
    refine map_congr_left fun c hc => dif_neg fun hbounds => ?_
    have hlower := isLower_iff.2 ⟨hbounds.1, hbounds.2⟩
    rw [h c hc] at hlower
    cases hlower
  rw [hmap, List.map_id, String.ofList_toList]

scoped instance : PyCase where
  upper s := String.ofList (s.toList.map Char.toUpper)
  upper_large s h := upper_large s fun c hc => (h c hc).2

theorem mem_strip (s : String) (c : Char) (h : c ∈ (strip s).toList) : c ∈ s.toList := by
  rw [strip, String.toList_ofList] at h
  exact mem_of_mem_trim isSpace h

scoped instance : PyTrim where
  mem_strip := mem_strip

scoped instance : PyStrip where
  strip_eq _ := rfl
  isSpace_graph _ h _ := isSpace_of_le h

scoped instance : PyClasses where
  isWord_ascii _ _ := rfl
  isWord_space c h := by
    simp only [PyText.isSpace, isSpace, Bool.or_eq_true, decide_eq_true_eq] at h
    rcases h with ((((rfl | rfl) | rfl) | rfl) | rfl) | rfl <;> rfl

end Ascii

end Langbridge.Core
