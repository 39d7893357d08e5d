/-
Texts up to the extent of their blanks: the words between blanks, and the text in which every run of blanks is one.
A part of the squeezed text that begins and ends with other characters is what a part of the text is squeezed to.

Main results: `words_squeeze`, `part_squeeze_iff`, `part_trim_iff`, `mem_words_iff`.
-/
import Langbridge.Core.Text

namespace Langbridge.Core

open List Option

section Words

variable {α : Type} (p : α → Bool) (blank : α)

/-- the runs between blanks -/
def words (l : List α) : List (List α) := (l.splitOnP p).filter fun w => !w.isEmpty

/-- the text in which every run of blanks is one; `b` says that a blank has just been written -/
def squeeze : Bool → List α → List α
  | _, [] => []
  | b, c :: cs => if p c then (if b then squeeze true cs else blank :: squeeze true cs) else c :: squeeze false cs

/-- a part of a text with characters beside it that do not satisfy `q` -/
def Part (q : α → Bool) (m l : List α) : Prop :=
  ∃ a b, l = a ++ m ++ b ∧ a.getLast?.any q = false ∧ b.head?.any q = false

theorem Part.mono {α : Type} {q r : α → Bool} (h : ∀ c, q c = false → r c = false) {m l : List α} (hm : Part q m l) :
    Part r m l := by
  obtain ⟨a, b, hl, ha, hb⟩ := hm
  have hany : ∀ {o : Option α}, o.any q = false → o.any r = false := by
    intro o ho
    cases o with
    | none => rfl
    | some c => exact h c ho
  exact ⟨a, b, hl, hany ha, hany hb⟩

theorem Part.isInfix {α : Type} {q : α → Bool} {m l : List α} (hm : Part q m l) : m <:+: l := by
  obtain ⟨a, b, hl, -⟩ := hm
  exact ⟨a, b, hl.symm⟩

/-- any part of a text is one if no character counts -/
theorem part_of_isInfix {α : Type} {m l : List α} (h : m <:+: l) : Part (fun _ => false) m l := by
  obtain ⟨a, b, hl⟩ := h
  have hany : ∀ o : Option α, o.any (fun _ => false) = false := fun o => by cases o <;> rfl
  exact ⟨a, b, hl.symm, hany _, hany _⟩

/-! ## Words -/

variable {p}

theorem words_cons_blank {c : α} (hc : p c = true) (l : List α) : words p (c :: l) = words p l := by
  rw [words, splitOnP_cons_eq_if_modifyHead, if_pos hc]
  rfl

variable {w : List α}

theorem words_of_all (hne : w ≠ []) (hw : ∀ c ∈ w, p c = false) : words p w = [w] := by
  rw [words, splitOnP_eq_singleton hw]
  simp [hne]

theorem words_append_blank (hne : w ≠ []) (hw : ∀ c ∈ w, p c = false) {c : α} (hc : p c = true)
    (l : List α) : words p (w ++ c :: l) = w :: words p l := by
  rw [words, splitOnP_append_cons_of_forall_mem hw c hc]
  simp [words, hne]

/-- a text is empty, begins with a blank, is a word, or begins with one -/
theorem words_cases (p : α → Bool) (l : List α) : l = [] ∨ (∃ c t, l = c :: t ∧ p c = true) ∨
    (l ≠ [] ∧ ∀ c ∈ l, p c = false) ∨
    ∃ w c t, l = w ++ c :: t ∧ w ≠ [] ∧ (∀ d ∈ w, p d = false) ∧ p c = true := by
  cases l with
  | nil => exact .inl rfl
  | cons c t =>
    by_cases hc : p c = true
    · exact .inr (.inl ⟨c, t, rfl, hc⟩)
    · right; right
      have hsplit := takeWhile_append_dropWhile (p := fun d => !p d) (l := c :: t)
      have hword : ∀ d ∈ (c :: t).takeWhile fun d => !p d, p d = false := by
        intro d hd
        simpa using all_eq_true.1 all_takeWhile d hd
      have hne : (c :: t).takeWhile (fun d => !p d) ≠ [] := by simp [hc]
      cases hdrop : (c :: t).dropWhile fun d => !p d with
      | nil =>
        left
        rw [hdrop, append_nil] at hsplit
        rw [← hsplit]
        exact ⟨hne, hword⟩
      | cons d t' =>
        right
        have hd : p d = true := by
          have hhead := head_dropWhile (fun d => !p d) (c :: t) d (by rw [hdrop]; rfl)
          simpa using hhead
        exact ⟨_, d, t', by rw [← hdrop]; exact hsplit.symm, hne, hword, hd⟩

variable {blank}

/-! ## Squeezing -/

theorem squeeze_cons_of_not {c : α} (hc : p c = false) (b : Bool) (l : List α) :
    squeeze p blank b (c :: l) = c :: squeeze p blank false l := by
  rw [squeeze, if_neg (by simp [hc])]

theorem squeeze_append_cons {c : α} (hc : p c = false) (b : Bool) (x y : List α) :
    squeeze p blank b (x ++ c :: y) = squeeze p blank b x ++ c :: squeeze p blank false y := by
  induction x generalizing b with
  | nil => exact squeeze_cons_of_not hc b y
  | cons d x ih =>
    rw [cons_append, squeeze, squeeze]
    split_ifs
    · exact ih true
    · rw [ih true, cons_append]
    · rw [ih false, cons_append]

/-- what stands before and after a text that ends with no blank is squeezed apart from it -/
theorem squeeze_append_of_last {x : List α} (hx : ∀ c ∈ x.getLast?, p c = false) (hne : x ≠ []) (b : Bool)
    (y : List α) : squeeze p blank b (x ++ y) = squeeze p blank b x ++ squeeze p blank false y := by
  obtain ⟨init, c, rfl⟩ := (eq_nil_or_concat' x).resolve_left hne
  have hc : p c = false := hx c (by simp)
  rw [append_assoc, singleton_append, squeeze_append_cons hc, squeeze_append_cons hc, squeeze,
    append_assoc]
  rfl

theorem squeeze_append_of_head {y : List α} (hy : ∀ c ∈ y.head?, p c = false) (hne : y ≠ []) (b : Bool)
    (x : List α) : squeeze p blank b (x ++ y) = squeeze p blank b x ++ squeeze p blank false y := by
  obtain ⟨c, t, rfl⟩ := exists_cons_of_ne_nil hne
  have hc : p c = false := hy c rfl
  rw [squeeze_append_cons hc, squeeze_cons_of_not hc]

theorem squeeze_word (hw : ∀ c ∈ w, p c = false) (b : Bool) : squeeze p blank b w = w := by
  induction w generalizing b with
  | nil => rfl
  | cons c w ih =>
    rw [forall_mem_cons] at hw
    rw [squeeze_cons_of_not hw.1, ih hw.2]

theorem squeeze_dropWhile (l : List α) : squeeze p blank true l = squeeze p blank false (l.dropWhile p) := by
  induction l with
  | nil => rfl
  | cons c l ih =>
    by_cases hc : p c = true
    · rw [squeeze, if_pos hc, if_pos rfl, ih, dropWhile_cons_of_pos hc]
    · rw [Bool.not_eq_true] at hc
      rw [dropWhile_cons_of_neg (by simp [hc]), squeeze_cons_of_not hc, squeeze_cons_of_not hc]

/-- **Squeezing** keeps the words. -/
theorem words_squeeze (hblank : p blank = true) (b : Bool) (l : List α) :
    words p (squeeze p blank b l) = words p l := by
  induction hn : l.length using Nat.strong_induction_on generalizing l b with
  | _ n ih =>
    rcases words_cases p l with rfl | ⟨c, t, rfl, hc⟩ | ⟨hne, hw⟩ | ⟨w, c, t, rfl, hne, hw, hc⟩
    · rfl
    · have ht := ih t.length (by rw [← hn]; exact Nat.lt_succ_self _) true t rfl
      rw [words_cons_blank hc, ← ht, squeeze, if_pos hc]
      split_ifs
      · rfl
      · exact words_cons_blank hblank _
    · rw [squeeze_word hw]
    · have ht := ih t.length (by rw [← hn, length_append, length_cons]; omega) true t rfl
      have hlast : ∀ d ∈ w.getLast?, p d = false := fun d hd => hw d (mem_of_getLast? hd)
      rw [squeeze_append_of_last hlast hne, squeeze_word hw, squeeze, if_pos hc, if_neg (by simp),
        words_append_blank hne hw hblank, words_append_blank hne hw hc, ht]

theorem squeeze_trimmed {l : List α} (hl : Trimmed p l) :
    squeeze p blank false l = [blank].intercalate (words p l) := by
  induction hn : l.length using Nat.strong_induction_on generalizing l with
  | _ n ih =>
    rcases words_cases p l with rfl | ⟨c, t, rfl, hc⟩ | ⟨hne, hw⟩ | ⟨w, c, t, rfl, hne, hw, hc⟩
    · rfl
    · exact absurd (hl.head c rfl) (by simp [hc])
    · rw [squeeze_word hw, words_of_all hne hw, intercalate_singleton]
    · have hlast : ∀ d ∈ w.getLast?, p d = false := fun d hd => hw d (mem_of_getLast? hd)
      -- the blanks between the first word and the rest
      obtain ⟨gap, hgap, hblanks⟩ := dropWhile_parts p t
      have hrest : t.dropWhile p ≠ [] := by
        intro hnil
        rw [hnil, append_nil] at hgap
        have hend := hl.last
        rcases eq_nil_or_concat' t with rfl | ⟨init, d, rfl⟩
        · exact absurd (hend c (by simp)) (by simp [hc])
        · exact absurd (hend d (by simp [getLast?_append, getLast?_cons]))
            (by simp [hblanks d (by rw [← hgap]; simp)])
      have htrimmed : Trimmed p (t.dropWhile p) := by
        refine ⟨head_dropWhile p t, fun d hd => hl.last d ?_⟩
        rw [hgap, ← cons_append, ← append_assoc, mem_def, getLast?_append, mem_def.1 hd]
        rfl
      have hwords : words p t = words p (t.dropWhile p) := by
        have hskip : ∀ gap : List α, (∀ a ∈ gap, p a = true) → ∀ l, words p (gap ++ l) = words p l := by
          intro gap hgap l
          induction gap with
          | nil => rfl
          | cons a gap ih =>
            rw [forall_mem_cons] at hgap
            rw [cons_append, words_cons_blank hgap.1, ih hgap.2]
        conv_lhs => rw [hgap]
        exact hskip gap hblanks _
      have ht := ih (t.dropWhile p).length (by
        have hle := (dropWhile_suffix p (l := t)).length_le
        rw [← hn, length_append, length_cons]
        omega) htrimmed rfl
      have hsome : words p (t.dropWhile p) ≠ [] := by
        intro hnil
        rw [hnil] at ht
        obtain ⟨d, rest, hd⟩ := exists_cons_of_ne_nil hrest
        have hhead := htrimmed.head d (by rw [hd]; rfl)
        rw [hd, squeeze_cons_of_not hhead] at ht
        cases ht
      rw [squeeze_append_of_last hlast hne, squeeze_word hw, squeeze, if_pos hc, if_neg (by simp), squeeze_dropWhile,
        words_append_blank hne hw hc, hwords, ht]
      obtain ⟨first, others, hfirst⟩ := exists_cons_of_ne_nil hsome
      rw [hfirst, intercalate_cons_cons]
      simp

/-- the words on both sides of a blank -/
theorem words_append {c : α} (hc : p c = true) (x y : List α) : words p (x ++ c :: y) = words p x ++ words p y := by
  induction hn : x.length using Nat.strong_induction_on generalizing x with
  | _ n ih =>
    rcases words_cases p x with rfl | ⟨d, t, rfl, hd⟩ | ⟨hne, hx⟩ | ⟨w, d, t, rfl, hne, hw, hd⟩
    · exact words_cons_blank hc y
    · rw [cons_append, words_cons_blank hd, words_cons_blank hd,
        ih t.length (by rw [← hn]; exact Nat.lt_succ_self _) t rfl]
    · rw [words_append_blank hne hx hc, words_of_all hne hx]
      rfl
    · rw [append_assoc, cons_append, words_append_blank hne hw hd, words_append_blank hne hw hd,
        ih t.length (by rw [← hn, length_append, length_cons]; omega) t rfl]
      rfl

theorem words_of_blanks {l : List α} (hl : ∀ c ∈ l, p c = true) : words p l = [] := by
  induction l with
  | nil => rfl
  | cons c l ih =>
    rw [words_cons_blank (hl c mem_cons_self)]
    exact ih fun d hd => hl d (mem_cons_of_mem c hd)

/-- trimming keeps the words -/
theorem words_trim (l : List α) : words p (trim p l) = words p l := by
  obtain ⟨before, after, hl, hblanks⟩ := trim_parts p l
  have hleft : ∀ (x y : List α), (∀ c ∈ x, p c = true) → words p (x ++ y) = words p y := by
    intro x y hx
    induction x with
    | nil => rfl
    | cons c x ih =>
      rw [cons_append, words_cons_blank (hx c mem_cons_self)]
      exact ih fun d hd => hx d (mem_cons_of_mem c hd)
  have hright : words p (trim p l ++ after) = words p (trim p l) := by
    cases after with
    | nil => rw [append_nil]
    | cons c t =>
      have ht : words p t = [] :=
        words_of_blanks fun d hd => hblanks d (mem_append_right _ (mem_cons_of_mem c hd))
      rw [words_append (hblanks c (by simp)), ht, append_nil]
  rw [← hright]
  conv_rhs => rw [hl, append_assoc]
  exact (hleft before _ fun c hc => hblanks c (mem_append_left _ hc)).symm

/-- no word is empty -/
theorem ne_nil_of_mem_words {w l : List α} (h : w ∈ words p l) : w ≠ [] := by
  rintro rfl
  simp [words] at h

theorem intercalate_append {sep : List α} {x y : List (List α)} (hx : x ≠ []) (hy : y ≠ []) :
    sep.intercalate (x ++ y) = sep.intercalate x ++ sep ++ sep.intercalate y := by
  induction x with
  | nil => exact absurd rfl hx
  | cons w x ih =>
    cases x with
    | nil =>
      obtain ⟨v, y, rfl⟩ := exists_cons_of_ne_nil hy
      rw [singleton_append, intercalate_cons_cons, intercalate_singleton]
    | cons v x =>
      rw [cons_append, cons_append, intercalate_cons_cons, intercalate_cons_cons,
        ← cons_append, ih (cons_ne_nil v x)]
      simp

theorem intercalate_words_eq_nil_iff {sep : List α} (l : List α) :
    sep.intercalate (words p l) = [] ↔ words p l = [] := by
  constructor
  · intro h
    cases hw : words p l with
    | nil => rfl
    | cons w ws =>
      have hne : w ≠ [] := ne_nil_of_mem_words (by rw [hw]; exact mem_cons_self)
      rw [hw] at h
      cases ws with
      | nil => exact absurd (by rwa [intercalate_singleton] at h) hne
      | cons v ws =>
        simp [hne] at h
  · intro h
    rw [h]
    rfl

/-! ## Parts -/

/-- a character of the squeezed text that is no blank comes from the text -/
theorem exists_of_squeeze (hblank : p blank = true) {c : α} (hc : p c = false) {b : Bool} {l x y : List α}
    (h : squeeze p blank b l = x ++ c :: y) :
    ∃ x' y', l = x' ++ c :: y' ∧ squeeze p blank b x' = x ∧ squeeze p blank false y' = y := by
  induction l generalizing b x with
  | nil => simp [squeeze] at h
  | cons d l ih =>
    rw [squeeze] at h
    split_ifs at h with hd hb
    · obtain ⟨x', y', rfl, hx, hy⟩ := ih h
      exact ⟨d :: x', y', rfl, by rw [squeeze, if_pos hd, if_pos hb]; exact hx, hy⟩
    · cases x with
      | nil =>
        obtain ⟨rfl, -⟩ := List.cons.inj h
        exact absurd hc (by simp [hblank])
      | cons e x =>
        obtain ⟨rfl, hrest⟩ := List.cons.inj h
        obtain ⟨x', y', rfl, hx, hy⟩ := ih hrest
        exact ⟨d :: x', y', rfl, by rw [squeeze, if_pos hd, if_neg hb, hx], hy⟩
    · cases x with
      | nil =>
        obtain ⟨rfl, hrest⟩ := List.cons.inj h
        exact ⟨[], l, rfl, rfl, hrest⟩
      | cons e x =>
        obtain ⟨rfl, hrest⟩ := List.cons.inj h
        obtain ⟨x', y', rfl, hx, hy⟩ := ih hrest
        exact ⟨d :: x', y', rfl, by rw [squeeze, if_neg hd, hx], hy⟩

variable {q : α → Bool}

theorem squeeze_eq_nil {l : List α} (h : squeeze p blank false l = []) : l = [] := by
  cases l with
  | nil => rfl
  | cons c l =>
    rw [squeeze, if_neg Bool.false_ne_true] at h
    split_ifs at h

/-- squeezing keeps the last character, blanks apart -/
theorem getLast_squeeze (hblank : p blank = true) (hq : ∀ c, p c = true → q c = false) (b : Bool) (l : List α) :
    (squeeze p blank b l).getLast?.any q = l.getLast?.any q := by
  rcases eq_nil_or_concat' l with rfl | ⟨init, c, rfl⟩
  · rfl
  · by_cases hc : p c = true
    · have hlast : ∀ (b : Bool) (x : List α), (squeeze p blank b (x ++ [c])).getLast?.any q = false := by
        intro b x
        induction x generalizing b with
        | nil =>
          rw [nil_append, squeeze, if_pos hc]
          split_ifs <;> simp [squeeze, hq blank hblank]
        | cons d x ih =>
          rw [cons_append, squeeze]
          split_ifs with hd hb
          · exact ih true
          · rw [getLast?_cons]
            have h := ih true
            cases hs : (squeeze p blank true (x ++ [c])).getLast? with
            | none => simp [hq blank hblank]
            | some e =>
              rw [hs] at h
              exact h
          · rw [getLast?_cons]
            have h := ih false
            cases hs : (squeeze p blank false (x ++ [c])).getLast? with
            | none =>
              have hempty := squeeze_eq_nil (getLast?_eq_none_iff.1 hs)
              simp at hempty
            | some e =>
              rw [hs] at h
              exact h
      rw [hlast]
      simp [hq c hc]
    · rw [Bool.not_eq_true] at hc
      rw [squeeze_append_cons hc, squeeze]
      simp

theorem head_squeeze (hblank : p blank = true) (hq : ∀ c, p c = true → q c = false) (l : List α) :
    (squeeze p blank false l).head?.any q = l.head?.any q := by
  cases l with
  | nil => rfl
  | cons c l =>
    rw [squeeze]
    split_ifs with hc hb
    · cases hb
    · simp [hq c hc, hq blank hblank]
    · rfl

/-- a squeezed text without blanks is the text -/
theorem squeeze_eq_self (hblank : p blank = true) {l : List α} (h : ∀ c ∈ squeeze p blank false l, p c = false) :
    squeeze p blank false l = l := by
  induction l with
  | nil => rfl
  | cons c l ih =>
    rw [squeeze, if_neg Bool.false_ne_true] at h ⊢
    split_ifs at h ⊢ with hc
    · exact absurd hblank (by simp [h blank mem_cons_self])
    · rw [ih fun d hd => h d (mem_cons_of_mem c hd)]

theorem trimmed_squeeze (hblank : p blank = true) {l : List α} (hl : Trimmed p l) :
    Trimmed p (squeeze p blank false l) := by
  have hhead := head_squeeze hblank (q := fun d => !p d) (fun c hc => by simp [hc]) l
  have hlast := getLast_squeeze hblank (q := fun d => !p d) (fun c hc => by simp [hc]) false l
  cases l with
  | nil => exact ⟨fun a ha => (nomatch ha), fun a ha => (nomatch ha)⟩
  | cons c t =>
    refine ⟨fun a ha => ?_, fun a ha => ?_⟩
    · rw [mem_def.1 ha] at hhead
      simpa [hl.head c rfl] using hhead
    · obtain ⟨e, he⟩ := ne_none_iff_exists'.1 (mt getLast?_eq_none_iff.1 (cons_ne_nil c t))
      rw [mem_def.1 ha, he] at hlast
      simpa [hl.last e he] using hlast

/-- the words of a text with one blank between them -/
theorem trim_squeeze_trim (hblank : p blank = true) (l : List α) :
    trim p (squeeze p blank false (trim p l)) = [blank].intercalate (words p l) := by
  rw [trim_of_trimmed _ _ (trimmed_squeeze hblank (trim_trimmed p l)), squeeze_trimmed (trim_trimmed p l), words_trim]

/-- **Parts of a squeezed text** are what parts of the text are squeezed to. -/
theorem part_squeeze_iff (hblank : p blank = true) (hq : ∀ c, p c = true → q c = false) {m : List α}
    (hm : Trimmed p m) (hne : m ≠ []) (l : List α) :
    Part q m (squeeze p blank false l) ↔ ∃ mid, Part q mid l ∧ Trimmed p mid ∧ squeeze p blank false mid = m := by
  constructor
  · rintro ⟨a, b, h, ha, hb⟩
    obtain ⟨c, t, rfl⟩ := exists_cons_of_ne_nil hne
    have hc : p c = false := hm.head c rfl
    rw [append_assoc, cons_append] at h
    obtain ⟨x, y, rfl, hx, hy⟩ := exists_of_squeeze hblank hc h
    rw [← hx, getLast_squeeze hblank hq] at ha
    rcases eq_nil_or_concat' t with rfl | ⟨inner, d, rfl⟩
    · rw [nil_append] at hy
      rw [← hy, head_squeeze hblank hq] at hb
      exact ⟨[c], ⟨x, y, by simp, ha, hb⟩, hm, squeeze_cons_of_not hc false []⟩
    · have hd : p d = false := hm.last d (by simp [getLast?_cons, getLast?_append])
      rw [append_assoc, singleton_append] at hy
      obtain ⟨z, y', rfl, hz, hy'⟩ := exists_of_squeeze hblank hd hy
      rw [← hy', head_squeeze hblank hq] at hb
      refine ⟨c :: z ++ [d], ⟨x, y', by simp, ha, hb⟩, ⟨?_, ?_⟩, ?_⟩
      · intro e he
        obtain rfl : c = e := by simpa using he
        exact hc
      · intro e he
        obtain rfl : d = e := by simpa [getLast?_cons, getLast?_append] using he
        exact hd
      · rw [cons_append, squeeze_cons_of_not hc, squeeze_append_cons hd, hz]
        rfl
  · rintro ⟨mid, ⟨x, y, rfl, hx, hy⟩, hmid, rfl⟩
    have hsome : mid ≠ [] := by
      rintro rfl
      exact hne rfl
    refine ⟨squeeze p blank false x, squeeze p blank false y, ?_, ?_, ?_⟩
    · rw [append_assoc, append_assoc, squeeze_append_of_head (fun c hc => hmid.head c ?_) (by simp [hsome]),
        squeeze_append_of_last hmid.last hsome]
      obtain ⟨e, t, rfl⟩ := exists_cons_of_ne_nil hsome
      exact hc
    · rw [getLast_squeeze hblank hq, hx]
    · rw [head_squeeze hblank hq, hy]

/-- a trimmed part of a text is not trimmed away -/
theorem trim_append {m : List α} (hm : Trimmed p m) (hne : m ≠ []) (a b : List α) :
    ∃ b', trim p (a ++ m ++ b) = a.dropWhile p ++ m ++ b' ∧ b' <+: b := by
  have hkeep : ∀ {x y : List α}, (∀ c ∈ y.head?, p c = false) → y ≠ [] →
      (x ++ y).dropWhile p = x.dropWhile p ++ y := by
    intro x y hy hy'
    induction x with
    | nil => exact dropWhile_of_head p y hy
    | cons c x ih =>
      by_cases hc : p c = true
      · rw [cons_append, dropWhile_cons_of_pos hc, dropWhile_cons_of_pos hc, ih]
      · rw [cons_append, dropWhile_cons_of_neg hc, dropWhile_cons_of_neg hc, cons_append]
  have hhead : ∀ c ∈ (m ++ b).head?, p c = false := by
    intro c hc
    refine hm.head c ?_
    obtain ⟨e, t, rfl⟩ := exists_cons_of_ne_nil hne
    exact hc
  have hlast : ∀ c ∈ (m.reverse ++ (a.dropWhile p).reverse).head?, p c = false := by
    intro c hc
    refine hm.last c ?_
    obtain ⟨init, e, rfl⟩ := (eq_nil_or_concat' m).resolve_left hne
    simpa using hc
  refine ⟨(b.reverse.dropWhile p).reverse, ?_, ?_⟩
  · rw [trim, append_assoc, hkeep hhead (by simp [hne]), reverse_append, reverse_append,
      append_assoc, hkeep hlast (by simp [hne])]
    simp
  · rw [← reverse_suffix, reverse_reverse]
    exact dropWhile_suffix p

/-- **Parts of a trimmed text** that are trimmed themselves are parts of the text. -/
theorem part_trim_iff (hq : ∀ c, p c = true → q c = false) {m : List α} (hm : Trimmed p m) (hne : m ≠ [])
    (l : List α) : Part q m (trim p l) ↔ Part q m l := by
  constructor
  · rintro ⟨a, b, h, ha, hb⟩
    obtain ⟨before, after, hl, hblanks⟩ := trim_parts p l
    refine ⟨before ++ a, b ++ after, ?_, ?_, ?_⟩
    · rw [hl, h]
      simp
    · rw [getLast?_append]
      cases hlast : a.getLast? with
      | some c =>
        rw [hlast] at ha
        exact ha
      | none =>
        rw [Option.none_or, Option.any_eq_false]
        exact fun c hc => by simp [hq c (hblanks c (mem_append_left _ (mem_of_getLast? hc)))]
    · rw [head?_append]
      cases hhead : b.head? with
      | some c =>
        rw [hhead] at hb
        exact hb
      | none =>
        rw [Option.none_or, Option.any_eq_false]
        exact fun c hc => by simp [hq c (hblanks c (mem_append_right _ (mem_of_mem_head? hc)))]
  · rintro ⟨a, b, rfl, ha, hb⟩
    obtain ⟨b', htrim, hb'⟩ := trim_append hm hne a b
    refine ⟨a.dropWhile p, b', htrim, ?_, ?_⟩
    · obtain ⟨gap, hgap, -⟩ := dropWhile_parts p a
      rw [hgap, getLast?_append] at ha
      cases hlast : (a.dropWhile p).getLast? with
      | none => rfl
      | some c =>
        rw [hlast] at ha
        exact ha
    · cases hhead : b'.head? with
      | none => rfl
      | some c =>
        obtain ⟨t, rfl⟩ := hb'
        rw [head?_append, hhead] at hb
        exact hb

/-- a word of a text that begins with a blank is one of the rest -/
theorem part_cons_blank {c : α} (hc : p c = true) {w t : List α} (hne : w ≠ []) (hw : ∀ d ∈ w, p d = false) :
    Part (fun d => !p d) w (c :: t) ↔ Part (fun d => !p d) w t := by
  constructor
  · rintro ⟨a, b, h, ha, hb⟩
    cases a with
    | nil =>
      obtain ⟨d, w', rfl⟩ := exists_cons_of_ne_nil hne
      obtain ⟨rfl, -⟩ := List.cons.inj h
      exact absurd (hw c mem_cons_self) (by simp [hc])
    | cons d a =>
      obtain ⟨rfl, rfl⟩ := List.cons.inj h
      refine ⟨a, b, rfl, ?_, hb⟩
      rw [getLast?_cons] at ha
      cases hlast : a.getLast? with
      | none => rfl
      | some e =>
        rw [hlast] at ha
        exact ha
  · rintro ⟨a, b, rfl, ha, hb⟩
    refine ⟨c :: a, b, rfl, ?_, hb⟩
    rw [getLast?_cons]
    cases hlast : a.getLast? with
    | none => simp [hc]
    | some e =>
      rw [hlast] at ha
      exact ha

/-- a text without blanks is its only word -/
theorem eq_of_part {w l : List α} (hl : ∀ c ∈ l, p c = false) (h : Part (fun d => !p d) w l) : w = l := by
  obtain ⟨a, b, rfl, ha, hb⟩ := h
  have hbefore : a = [] := by
    by_contra hne
    obtain ⟨init, c, rfl⟩ := (eq_nil_or_concat' a).resolve_left hne
    simp [hl c (by simp)] at ha
  have hafter : b = [] := by
    by_contra hne
    obtain ⟨c, t, rfl⟩ := exists_cons_of_ne_nil hne
    simp [hl c (by simp)] at hb
  rw [hbefore, hafter, nil_append, append_nil]

/-- **Words** are the longest runs without blanks. -/
theorem mem_words_iff {w l : List α} :
    w ∈ words p l ↔ w ≠ [] ∧ (∀ c ∈ w, p c = false) ∧ Part (fun c => !p c) w l := by
  induction hn : l.length using Nat.strong_induction_on generalizing l with
  | _ n ih =>
    rcases words_cases p l with rfl | ⟨c, t, rfl, hc⟩ | ⟨hne, hl⟩ | ⟨v, c, t, rfl, hne, hv, hc⟩
    · refine iff_of_false not_mem_nil ?_
      rintro ⟨hne, -, a, b, h, -⟩
      simp [hne] at h
    · rw [words_cons_blank hc, ih t.length (by rw [← hn]; exact Nat.lt_succ_self _) rfl]
      exact and_congr_right fun hne => and_congr_right fun hw => (part_cons_blank hc hne hw).symm
    · rw [words_of_all hne hl, mem_singleton]
      constructor
      · rintro rfl
        exact ⟨hne, hl, [], [], by simp, rfl, rfl⟩
      · exact fun h => eq_of_part hl h.2.2
    · have ht := ih t.length (by rw [← hn, length_append, length_cons]; omega) rfl
      rw [words_append_blank hne hv hc, mem_cons, ht]
      constructor
      · rintro (rfl | ⟨hw, hall, a, b, rfl, ha, hb⟩)
        · exact ⟨hne, hv, [], c :: t, rfl, rfl, by simp [hc]⟩
        · refine ⟨hw, hall, v ++ c :: a, b, by simp, ?_, hb⟩
          rw [getLast?_append, getLast?_cons]
          cases hlast : a.getLast? with
          | none => simp [hc]
          | some e =>
            rw [hlast] at ha
            exact ha
      · rintro ⟨hw, hall, a, b, h, ha, hb⟩
        rw [append_assoc] at h
        rcases append_eq_append_iff.1 h with ⟨s, rfl, hs⟩ | ⟨s, hs, hrest⟩
        · -- the word begins after the first one
          right
          cases s with
          | nil =>
            obtain ⟨init, d, rfl⟩ := (eq_nil_or_concat' v).resolve_left hne
            simp [hv d (by simp)] at ha
          | cons d s =>
            obtain ⟨rfl, rfl⟩ := List.cons.inj hs
            refine ⟨hw, hall, s, b, by simp, ?_, hb⟩
            rw [getLast?_append, getLast?_cons] at ha
            cases hlast : s.getLast? with
            | none => rfl
            | some e =>
              rw [hlast] at ha
              exact ha
        · -- it begins in the first one
          left
          have hbefore : a = [] := by
            by_contra hsome
            obtain ⟨init, d, rfl⟩ := (eq_nil_or_concat' a).resolve_left hsome
            simp [hv d (by rw [hs]; simp)] at ha
          rw [hbefore, nil_append] at hs
          rw [← hs] at hrest
          rcases append_eq_append_iff.1 hrest with ⟨r, rfl, hr⟩ | ⟨r, rfl, hr⟩
          · cases r with
            | nil => rw [append_nil]
            | cons d r =>
              rw [hr] at hb
              simp [hv d (by simp)] at hb
          · cases r with
            | nil => rw [append_nil]
            | cons d r =>
              obtain ⟨rfl, -⟩ := List.cons.inj hr
              exact absurd (hall c (by simp)) (by simp [hc])

end Words

end Langbridge.Core
