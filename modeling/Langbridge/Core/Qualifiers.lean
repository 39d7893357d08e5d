/-
Names before a mark. Some elements of a text make up words, and a word with a mark behind it, such as a dot, is a
qualifier. Qualifiers do not overlap. Where other texts are written for some of them, which end with the mark, the
others stay: the qualifiers of the new text are those that are kept and those of what is written.

Main results: `pieces_rewrite`, `sub_eq_rewrite`, `rewrite_eq_iff`.
-/
import Langbridge.Core.Substitution
import Mathlib.Data.List.TakeWhile

namespace Langbridge.Core

open List

variable {α μ δ : Type}

/-! ## Writing for some matches -/

/-- a piece with another text written for the match, if there is one for it -/
def Piece.rewrite (write : μ → δ → Option (List α)) : Piece α μ δ → List α
  | .same c => [c]
  | .found m text d => (write m d).getD text

/-- what a piece was cut out of -/
def Piece.text : Piece α μ δ → List α
  | .same c => [c]
  | .found _ text _ => text

variable {P : Pattern α δ}

/-- the pieces of a text make it up -/
theorem flatMap_text (hP : P.Bounded) (step : μ → α → μ) (m : μ) (before : Option α) (skip : ℕ)
    (s : List α) : (P.pieces step m before skip s).flatMap Piece.text = s.drop skip := by
  fun_induction Pattern.pieces P step m before skip s with
  | case1 => exact drop_nil.symm
  | case2 m before skip c cs ih => exact ih
  | case3 m before c cs n d hc ih =>
    obtain ⟨hpos, -⟩ := hP _ _ _ _ hc
    obtain ⟨k, rfl⟩ := Nat.exists_eq_succ_of_ne_zero hpos.ne'
    rw [flatMap_cons, ih, Piece.text, Nat.succ_eq_add_one, Nat.add_sub_cancel, drop_zero, take_succ_cons,
      cons_append, take_append_drop]
  | case4 m before c cs hc ih =>
    rw [flatMap_cons, ih]
    rfl

/-- a piece without its mark -/
def Piece.forget : Piece α μ δ → Piece α Unit δ
  | .same c => .same c
  | .found _ text d => .found () text d

/-- the marks do not matter for the matches -/
theorem map_forget (step : μ → α → μ) (m : μ) (before : Option α) (skip : ℕ) (s : List α) :
    (P.pieces step m before skip s).map Piece.forget = P.pieces (fun _ _ => ()) () before skip s := by
  induction s generalizing m before skip with
  | nil => rfl
  | cons c s ih =>
    cases skip with
    | succ n => exact ih _ _ n
    | zero =>
      cases hc : P before (c :: s) with
      | none =>
        rw [Pattern.pieces_same hc, Pattern.pieces_same hc, map_cons, ih]
        rfl
      | some found =>
        rw [Pattern.pieces_found hc, Pattern.pieces_found hc, map_cons, ih]
        rfl

/-- two ways to write for the pieces of a text, of which the one writes no less -/
theorem flatMap_eq_iff_of_length {ι : Type} {f g : ι → List α} {l : List ι}
    (h : ∀ i ∈ l, (f i).length ≤ (g i).length) : l.flatMap f = l.flatMap g ↔ ∀ i ∈ l, f i = g i := by
  refine ⟨fun heq => ?_, flatMap_congr⟩
  induction l with
  | nil => exact fun i hi => absurd hi not_mem_nil
  | cons i l ih =>
    rw [forall_mem_cons] at h ⊢
    rw [flatMap_cons, flatMap_cons] at heq
    have hrest : (l.flatMap f).length ≤ (l.flatMap g).length := by
      rw [length_flatMap, length_flatMap]
      exact sum_le_sum h.2
    have hlengths := congrArg List.length heq
    rw [length_append, length_append] at hlengths
    obtain ⟨hi, hl⟩ := List.append_inj heq (by have := h.1; omega)
    exact ⟨hi, ih h.2 hl⟩

/-- a text without matches stays -/
theorem sub_of_not_found (hP : P.Bounded) (replacement : δ → List α) {s : List α}
    (h : (P.pieces (fun _ _ => ()) () none 0 s).any Piece.isFound = false) : P.sub replacement s = s := by
  have htext := flatMap_text hP (fun _ _ => ()) () none 0 s
  refine (flatMap_congr fun p hp => ?_).trans htext
  cases p with
  | same c => rfl
  | found m text d => exact absurd rfl (any_eq_false.1 h _ hp)

/-- a text stays where its matches are replaced by longer texts exactly if it has none -/
theorem sub_eq_self_iff (hP : P.Bounded) {replacement : δ → List α}
    (hlonger : ∀ before s n d, P before s = some (n, d) → n < (replacement d).length) (s : List α) :
    P.sub replacement s = s ↔ (P.pieces (fun _ _ => ()) () none 0 s).any Piece.isFound = false := by
  have htext := flatMap_text hP (fun _ _ => ()) () none 0 s
  have hpiece : ∀ p ∈ P.pieces (fun _ _ => ()) () none 0 s, p.text.length ≤ (p.replace replacement).length ∧
      (p.text = p.replace replacement ↔ p.isFound = false) := by
    intro p hp
    cases p with
    | same c => exact ⟨le_refl _, iff_of_true rfl rfl⟩
    | found m text d =>
      obtain ⟨b, cs, n, hq, rfl⟩ := Pattern.found_of_mem hp
      have hlength := hlonger _ _ _ _ hq
      have htake : (cs.take n).length = n := length_take_of_le (hP _ _ _ _ hq).2
      rw [Piece.text, Piece.replace, htake]
      refine ⟨hlength.le, iff_of_false (fun heq => ?_) (by exact Bool.noConfusion)⟩
      rw [← heq, htake] at hlength
      exact absurd hlength (lt_irrefl n)
  rw [drop_zero] at htext
  rw [Pattern.sub, eq_comm]
  conv_lhs => lhs; rw [← htext]
  rw [flatMap_eq_iff_of_length fun p hp => (hpiece p hp).1, any_eq_false]
  exact forall₂_congr fun p hp => by rw [(hpiece p hp).2, Bool.not_eq_true]

/-- **Writing for some of the matches.** Where nothing that is written begins as its match does, writing for some
matches only gives the same text exactly if the others have nothing to be written. -/
theorem rewrite_eq_iff {write write' : μ → δ → Option (List α)} {l : List (Piece α μ δ)}
    (hsome : ∀ m text d, .found m text d ∈ l → write' m d = none ∨ write' m d = write m d)
    (hapart : ∀ m text d, .found m text d ∈ l → ∀ x ∈ write m d, ∀ t t', x ++ t ≠ text ++ t') :
    l.flatMap (Piece.rewrite write) = l.flatMap (Piece.rewrite write') ↔
      ∀ m text d, .found m text d ∈ l → write' m d = write m d := by
  constructor
  · intro h
    induction l with
    | nil => exact fun m text d hmem => absurd hmem not_mem_nil
    | cons p l ih =>
      have ih := ih (fun m text d hmem => hsome m text d (mem_cons_of_mem p hmem))
        fun m text d hmem => hapart m text d (mem_cons_of_mem p hmem)
      rw [flatMap_cons, flatMap_cons] at h
      intro m text d hmem
      cases p with
      | same c =>
        exact ih (List.cons.inj h).2 m text d ((mem_cons.1 hmem).resolve_left nofun)
      | found m₀ text₀ d₀ =>
        have hhead : write' m₀ d₀ = write m₀ d₀ := by
          rcases hsome m₀ text₀ d₀ mem_cons_self with hnone | heq
          · cases hx : write m₀ d₀ with
            | none => exact hnone
            | some x =>
              rw [Piece.rewrite, Piece.rewrite, hnone, hx] at h
              exact absurd h (hapart m₀ text₀ d₀ mem_cons_self x hx _ _)
          · exact heq
        rcases mem_cons.1 hmem with heq | hmem
        · cases heq
          exact hhead
        · rw [Piece.rewrite, Piece.rewrite, hhead] at h
          exact ih (append_cancel_left h) m text d hmem
  · intro h
    refine flatMap_congr fun p hp => ?_
    cases p with
    | same c => rfl
    | found m text d => rw [Piece.rewrite, Piece.rewrite, h m text d hp]

/-! ## Qualifiers -/

section Qualifiers

variable [DecidableEq α] (word : α → Bool) (mark : α)

/-- a whole word with the mark behind it -/
def qualifier : Pattern α (List α) := fun before s =>
  if s.takeWhile word ≠ [] ∧ before.any word = false ∧ (s.dropWhile word).head? = some mark then
    some ((s.takeWhile word).length + 1, s.takeWhile word)
  else none

def qualifiers (s : List α) : List (List α) :=
  ((qualifier word mark).pieces (fun _ _ => ()) () none 0 s).filterMap fun
    | .same _ => none
    | .found _ _ name => some name

variable {word mark}

omit [DecidableEq α] in
/-- a word and what stands behind it -/
theorem takeWhile_word {x t : List α} (hx : ∀ c ∈ x, word c = true) (ht : ∀ c ∈ t.head?, word c = false) :
    (x ++ t).takeWhile word = x ∧ (x ++ t).dropWhile word = t := by
  rw [takeWhile_append_of_pos hx, dropWhile_append_of_pos hx]
  cases t with
  | nil => simp
  | cons c t => simp [ht c rfl]

variable {before : Option α}

/-- only the word that a text begins with and the element behind it matter -/
theorem qualifier_congr {s s' : List α} (htake : s.takeWhile word = s'.takeWhile word)
    (hdrop : (s.dropWhile word).head? = (s'.dropWhile word).head?) :
    qualifier word mark before s = qualifier word mark before s' := by
  rw [qualifier, qualifier, htake, hdrop]

theorem qualifier_before {before before' : Option α} (h : before.any word = before'.any word) (s : List α) :
    qualifier word mark before s = qualifier word mark before' s := by
  rw [qualifier, qualifier, h]

variable {b : α}

theorem qualifier_of_word (hb : word b = true) (s : List α) : qualifier word mark (some b) s = none :=
  if_neg fun h => by simp [hb] at h

section Marked

variable (hmark : word mark = false)
include hmark

theorem qualifier_eq_some_iff {s name : List α} {n : ℕ} :
    qualifier word mark before s = some (n, name) ↔ name ≠ [] ∧ (∀ c ∈ name, word c = true) ∧
      before.any word = false ∧ n = name.length + 1 ∧ ∃ t, s = name ++ mark :: t := by
  constructor
  · intro h
    rw [qualifier] at h
    split_ifs at h with hq
    obtain ⟨hn, rfl⟩ := Prod.mk.inj (Option.some.inj h)
    obtain ⟨t, ht⟩ := head?_eq_some_iff.1 hq.2.2
    refine ⟨hq.1, fun c hc => mem_takeWhile_imp hc, hq.2.1, hn.symm, t, ?_⟩
    rw [← ht, takeWhile_append_dropWhile]
  · rintro ⟨hne, hword, hbefore, rfl, t, rfl⟩
    obtain ⟨htake, hdrop⟩ := takeWhile_word (t := mark :: t) hword (by simp [hmark])
    rw [qualifier, htake, hdrop, if_pos ⟨hne, hbefore, rfl⟩]

theorem qualifier_bounded : (qualifier word mark).Bounded := by
  intro before s n name h
  obtain ⟨-, -, -, rfl, t, rfl⟩ := (qualifier_eq_some_iff hmark).1 h
  simp

/-- what stands behind a mark does not matter -/
theorem qualifier_append (before : Option α) (x t : List α) :
    qualifier word mark before (x ++ [mark] ++ t) = qualifier word mark before (x ++ [mark]) := by
  apply qualifier_congr
  · induction x with
    | nil => simp [hmark]
    | cons c x ih => simp only [cons_append, takeWhile_cons, ih]
  · induction x with
    | nil => simp [hmark]
    | cons c x ih =>
      simp only [cons_append, dropWhile_cons]
      split_ifs
      · exact ih
      · rfl

/-- a text that begins with a qualifier -/
theorem pieces_qualifier {step : μ → α → μ} {m : μ} {name : List α} (t : List α)
    (hne : name ≠ []) (hword : ∀ c ∈ name, word c = true) (hbefore : before.any word = false) :
    (qualifier word mark).pieces step m before 0 (name ++ [mark] ++ t) =
      .found m (name ++ [mark]) name ::
        (qualifier word mark).pieces step ((name ++ [mark]).foldl step m) (some mark) 0 t := by
  have hfound : qualifier word mark before (name ++ [mark] ++ t) = some ((name ++ [mark]).length, name) :=
    (qualifier_eq_some_iff hmark).2 ⟨hne, hword, hbefore, by simp, t, by simp⟩
  rw [Pattern.pieces_match (by simp) hfound]
  simp [lastOr]

/-- a text begins with a qualifier or not -/
theorem pieces_cases (before : Option α) (c : α) (s : List α) : qualifier word mark before (c :: s) = none ∨
    ∃ name t, c :: s = name ++ [mark] ++ t ∧ name ≠ [] ∧ (∀ c ∈ name, word c = true) ∧ before.any word = false := by
  cases hq : qualifier word mark before (c :: s) with
  | none => exact .inl rfl
  | some found =>
    obtain ⟨hne, hword, hbefore, -, t, ht⟩ := (qualifier_eq_some_iff hmark).1 hq
    exact .inr ⟨found.2, t, by simpa using ht, hne, hword, hbefore⟩

end Marked

/-! ## Rewritten texts -/

section Rewritten

variable {step : μ → α → μ} {write : μ → List α → Option (List α)}

variable (mark step write) in
/-- the rest of a word, with what stands behind it, is not written anew -/
theorem rewrite_run (hb : word b = true) (m : μ) (s : List α) : ∃ t,
    ((qualifier word mark).pieces step m (some b) 0 s).flatMap (Piece.rewrite write) = s.takeWhile word ++ t ∧
      t.head? = (s.dropWhile word).head? := by
  induction s generalizing b m with
  | nil => exact ⟨[], rfl, rfl⟩
  | cons c s ih =>
    rw [Pattern.pieces_same (qualifier_of_word hb (c :: s)), flatMap_cons, Piece.rewrite]
    by_cases hc : word c = true
    · obtain ⟨t, ht, hhead⟩ := ih hc (step m c)
      refine ⟨t, ?_, ?_⟩
      · rw [ht, takeWhile_cons_of_pos hc]
        rfl
      · rw [hhead, dropWhile_cons_of_pos hc]
    · rw [takeWhile_cons_of_neg hc, dropWhile_cons_of_neg hc]
      exact ⟨_, rfl, rfl⟩

/-- where no qualifier begins, none begins in the rewritten text -/
theorem qualifier_rewrite {c : α} {s : List α} (m : μ)
    (h : qualifier word mark before (c :: s) = none) : qualifier word mark before
      (c :: ((qualifier word mark).pieces step m (some c) 0 s).flatMap (Piece.rewrite write)) = none := by
  by_cases hc : word c = true
  · obtain ⟨t, ht, hhead⟩ := rewrite_run mark step write hc m s
    have hnext : ∀ d ∈ t.head?, word d = false := by
      rw [hhead]
      intro d hd
      have := head?_dropWhile_not word s
      rw [Option.mem_def.1 hd] at this
      simpa using this
    obtain ⟨htake, hdrop⟩ := takeWhile_word (fun d hd => mem_takeWhile_imp (l := s) (p := word) hd) hnext
    rw [ht, ← h]
    apply qualifier_congr
    · rw [takeWhile_cons_of_pos hc, takeWhile_cons_of_pos hc, htake]
    · rw [dropWhile_cons_of_pos hc, dropWhile_cons_of_pos hc, hdrop, hhead]
  · exact if_neg fun hq => hq.1 (takeWhile_cons_of_neg hc)

def writtenPieces (word : α → Bool) (mark : α) (write : μ → List α → Option (List α)) :
    Piece α μ (List α) → List (Piece α Unit (List α))
  | .same c => [.same c]
  | .found m text name => (qualifier word mark).pieces (fun _ _ => ()) () none 0 ((write m name).getD text)

/-- **The pieces of a rewritten text** are those of what is written, where each of these ends with the mark. -/
theorem pieces_rewrite (hmark : word mark = false)
    (hwrite : ∀ m name, ∀ x ∈ write m name, ∃ y, x = y ++ [mark]) (m : μ) (before : Option α) (s : List α) :
    (qualifier word mark).pieces (fun _ _ => ()) () before 0
        (((qualifier word mark).pieces step m before 0 s).flatMap (Piece.rewrite write)) =
      ((qualifier word mark).pieces step m before 0 s).flatMap (writtenPieces word mark write) := by
  induction hn : s.length using Nat.strong_induction_on generalizing m before s with
  | h n ih =>
    cases s with
    | nil => rfl
    | cons c s =>
      rcases pieces_cases hmark before c s with hnone | ⟨name, t, hs, hne, hword, hbefore⟩
      · rw [Pattern.pieces_same hnone, flatMap_cons, flatMap_cons]
        rw [Piece.rewrite, singleton_append, Pattern.pieces_same (qualifier_rewrite _ hnone),
          ih s.length (by rw [← hn, length_cons]; omega) _ _ s rfl]
        rfl
      · have hlength : t.length < n := by
          rw [← hn, hs]
          simp
          omega
        rw [hs, pieces_qualifier hmark t hne hword hbefore, flatMap_cons, flatMap_cons,
          ← ih t.length hlength _ _ t rfl, Piece.rewrite, writtenPieces]
        obtain ⟨y, hy⟩ : ∃ y, (write m name).getD (name ++ [mark]) = y ++ [mark] := by
          cases hx : write m name with
          | none => exact ⟨name, rfl⟩
          | some x => exact hwrite m name x hx
        rw [hy, Pattern.pieces_append (qualifier_bounded hmark) ?_ () before 0 (Nat.zero_le _)]
        · congr 1
          · exact Pattern.pieces_before (qualifier_before hbefore _) ()
          · simp [lastOr]
        · rintro b z hz ⟨w, hw⟩
          obtain ⟨z', c', rfl⟩ := (eq_nil_or_concat' z).resolve_left hz
          rw [← append_assoc] at hw
          obtain rfl : c' = mark := by simpa using (append_inj' hw rfl).2
          exact qualifier_append hmark b z' _

end Rewritten

/-! ## One name -/

section OneName

variable (word mark) in
/-- a name with the mark behind it, at a boundary of words -/
def reference (key : List α) : Pattern α Unit := fun before s =>
  if (key ++ [mark]).isPrefixOf s = true ∧ before.any word ≠ s.head?.any word then some (key.length + 1, ()) else none

/-- a text is written for the qualifiers of one name -/
def writeFor (key x : List α) : μ → List α → Option (List α) := fun _ name => if name = key then some x else none

theorem reference_bounded (key : List α) : (reference word mark key).Bounded := by
  intro before s n d h
  rw [reference] at h
  split_ifs at h with hfound
  obtain ⟨rfl, -⟩ := Prod.mk.inj (Option.some.inj h)
  have hlength := (List.isPrefixOf_iff_prefix.1 hfound.1).length_le
  rw [length_append, length_singleton] at hlength
  exact ⟨Nat.succ_pos _, hlength⟩

variable {key : List α}

/-- a word is found where it is the name of a qualifier -/
theorem reference_eq (hmark : word mark = false) (hne : key ≠ [])
    (hword : ∀ c ∈ key, word c = true) (before : Option α) (s : List α) : reference word mark key before s =
      if (qualifier word mark before s).map Prod.snd = some key then some (key.length + 1, ()) else none := by
  apply if_congr _ rfl rfl
  rw [List.isPrefixOf_iff_prefix, Option.map_eq_some_iff]
  constructor
  · rintro ⟨⟨t, rfl⟩, hbefore⟩
    obtain ⟨c, key, rfl⟩ := exists_cons_of_ne_nil hne
    have hc : (c :: key ++ [mark] ++ t).head?.any word = true := hword c mem_cons_self
    rw [hc, ne_eq, Bool.not_eq_true] at hbefore
    exact ⟨(_, c :: key), (qualifier_eq_some_iff hmark).2 ⟨hne, hword, hbefore, rfl, t, by simp⟩, rfl⟩
  · rintro ⟨⟨n, name⟩, h, heq⟩
    obtain rfl : name = key := heq
    obtain ⟨-, -, hbefore, -, t, rfl⟩ := (qualifier_eq_some_iff hmark).1 h
    refine ⟨⟨t, by simp⟩, ?_⟩
    have hhead : (name ++ mark :: t).head?.any word = true := by
      obtain ⟨c, name, rfl⟩ := exists_cons_of_ne_nil hne
      exact hword c mem_cons_self
    rw [hbefore, hhead]
    exact Bool.noConfusion

/-- inside a qualifier no name is found -/
theorem reference_clean (hmark : word mark = false) (hne : key ≠ [])
    (hword : ∀ c ∈ key, word c = true) (hb : word b = true) {x : List α} (hx : ∀ c ∈ x, word c = true)
    (t : List α) : (reference word mark key).Clean (some b) (x ++ [mark]) t := by
  have hnone : ∀ {b : α}, word b = true → ∀ s, reference word mark key (some b) s = none := by
    intro b hb s
    rw [reference_eq hmark hne hword, qualifier_of_word hb]
    exact if_neg nofun
  induction x generalizing b with
  | nil => exact ⟨hnone hb _, trivial⟩
  | cons c x ih => exact ⟨hnone hb _, ih (hx c mem_cons_self) fun d hd => hx d (mem_cons_of_mem c hd)⟩

/-- **Replacing one name.** The name's references are the qualifiers of that name. -/
theorem sub_reference (hmark : word mark = false) (hne : key ≠ [])
    (hword : ∀ c ∈ key, word c = true) (x : List α) (step : μ → α → μ) (m : μ) (before : Option α) (s : List α) :
    ((reference word mark key).pieces (fun _ _ => ()) () before 0 s).flatMap (Piece.replace fun _ => x) =
      ((qualifier word mark).pieces step m before 0 s).flatMap (Piece.rewrite (writeFor key x)) := by
  induction hn : s.length using Nat.strong_induction_on generalizing m before s with
  | h n ih =>
    cases s with
    | nil => rfl
    | cons c s =>
      have hreference := reference_eq hmark hne hword before (c :: s)
      rcases pieces_cases hmark before c s with hnone | ⟨name, t, hs, hname, hletters, hbefore⟩
      · rw [hnone, if_neg nofun] at hreference
        rw [Pattern.pieces_same hnone, Pattern.pieces_same hreference, flatMap_cons, flatMap_cons,
          ih s.length (by rw [← hn, length_cons]; omega) _ _ s rfl]
        rfl
      · have hlength : t.length < n := by
          rw [← hn, hs]
          simp
          omega
        have hqualifier : qualifier word mark before (c :: s) = some (name.length + 1, name) :=
          (qualifier_eq_some_iff hmark).2 ⟨hname, hletters, hbefore, rfl, t, by rw [hs]; simp⟩
        have hlast : lastOr before (name ++ [mark]) = some mark := by simp [lastOr]
        by_cases hkey : name = key
        · rw [hqualifier, Option.map_some, if_pos (congrArg some hkey), hs, ← hkey] at hreference
          have hmatch : reference word mark key before (name ++ [mark] ++ t) = some ((name ++ [mark]).length, ()) := by
            rw [← hkey, hreference]
            simp
          rw [hs, pieces_qualifier hmark t hname hletters hbefore, Pattern.pieces_match (by simp) hmatch,
            flatMap_cons, flatMap_cons, hlast, ih t.length hlength _ _ t rfl, Piece.replace, Piece.rewrite,
            writeFor, if_pos hkey]
          rfl
        · rw [hqualifier, Option.map_some, if_neg fun h => hkey (Option.some.inj h), hs] at hreference
          have hclean : (reference word mark key).Clean before (name ++ [mark]) t := by
            obtain ⟨d, name, rfl⟩ := exists_cons_of_ne_nil hname
            exact ⟨hreference, reference_clean hmark hne hword (hletters d mem_cons_self)
              (fun e he => hletters e (mem_cons_of_mem d he)) t⟩
          rw [hs, pieces_qualifier hmark t hname hletters hbefore, Pattern.pieces_clean _ hclean, flatMap_append,
            Pattern.flatMap_replace_same, flatMap_cons, hlast, ih t.length hlength _ _ t rfl, Piece.rewrite,
            writeFor, if_neg hkey]
          rfl

end OneName

/-! ## One name after another -/

section Names

variable (code : μ → Bool) (rename : List α → List α)

/-- the names of a list are written anew where they stand in code -/
def renameAll (done : List (List α)) : μ → List α → Option (List α) := fun m name =>
  if code m = true ∧ name ∈ done then some (rename name) else none

theorem found_qualifier (hmark : word mark = false) {step : μ → α → μ} {m₀ m : μ} {skip : ℕ}
    {s text name : List α} (h : .found m text name ∈ (qualifier word mark).pieces step m₀ before skip s) :
    text = name ++ [mark] ∧ name ≠ [] ∧ ∀ c ∈ name, word c = true := by
  obtain ⟨b, cs, n, hq, rfl⟩ := Pattern.found_of_mem h
  obtain ⟨hne, hword, -, rfl, t, rfl⟩ := (qualifier_eq_some_iff hmark).1 hq
  exact ⟨by simp [take_append], hne, hword⟩

/-- longer texts that are written for a name are seen exactly if the name is one of the qualifiers -/
theorem writeFor_eq_iff (hmark : word mark = false) {key x : List α} (hx : key.length + 1 < x.length) (s : List α) :
    (s.length ≤ (((qualifier word mark).pieces (fun _ _ => ()) () none 0 s).flatMap
        (Piece.rewrite (writeFor key x))).length) ∧
      (s = ((qualifier word mark).pieces (fun _ _ => ()) () none 0 s).flatMap (Piece.rewrite (writeFor key x)) ↔
        key ∉ qualifiers word mark s) := by
  have htext := flatMap_text (qualifier_bounded hmark : (qualifier word mark).Bounded) (fun _ _ => ()) () none 0 s
  have hpiece : ∀ p ∈ (qualifier word mark).pieces (fun _ _ => ()) () none 0 s,
      p.text.length ≤ (p.rewrite (writeFor key x)).length ∧
        (p.text = p.rewrite (writeFor key x) ↔ ∀ m text name, p = .found m text name → name ≠ key) := by
    intro p hp
    cases p with
    | same c => exact ⟨le_refl _, iff_of_true rfl nofun⟩
    | found m text name =>
      obtain ⟨rfl, -, -⟩ := found_qualifier hmark hp
      rw [Piece.text, Piece.rewrite, writeFor]
      by_cases hname : name = key
      · subst hname
        rw [if_pos rfl, Option.getD_some, length_append, length_singleton]
        refine ⟨hx.le, iff_of_false (fun heq => ?_) fun h => h m _ name rfl rfl⟩
        rw [← heq, length_append, length_singleton] at hx
        exact absurd hx (lt_irrefl _)
      · rw [if_neg hname]
        refine ⟨le_refl _, iff_of_true rfl fun m' text' name' heq => ?_⟩
        cases heq
        exact hname
  rw [drop_zero] at htext
  constructor
  · conv_lhs => rw [← htext]
    rw [length_flatMap, length_flatMap]
    exact sum_le_sum fun p hp => (hpiece p hp).1
  · conv_lhs => lhs; rw [← htext]
    rw [flatMap_eq_iff_of_length fun p hp => (hpiece p hp).1, qualifiers, mem_filterMap]
    constructor
    · rintro h ⟨p, hp, hname⟩
      cases p with
      | same c => cases hname
      | found m text name => exact (hpiece _ hp).2.1 (h _ hp) m text name rfl (Option.some.inj hname)
    · intro h p hp
      refine (hpiece p hp).2.2 fun m text name heq hkey => h ⟨p, hp, ?_⟩
      rw [heq, ← hkey]

variable {key : List α}

theorem renameAll_of_not_word (hmark : word mark = false)
    (hkey : ¬(key ≠ [] ∧ ∀ c ∈ key, word c = true)) (done : List (List α)) (step : μ → α → μ) (m₀ : μ) (s : List α) :
    ((qualifier word mark).pieces step m₀ none 0 s).flatMap (Piece.rewrite (renameAll code rename (done ++ [key]))) =
      ((qualifier word mark).pieces step m₀ none 0 s).flatMap (Piece.rewrite (renameAll code rename done)) := by
  refine flatMap_congr fun p hp => ?_
  cases p with
  | same c => rfl
  | found m text name =>
    obtain ⟨-, hname⟩ := found_qualifier hmark hp
    have hmem : name ∈ done ++ [key] ↔ name ∈ done := by
      rw [mem_append, mem_singleton, or_iff_left]
      exact fun heq => hkey (heq ▸ hname)
    rw [Piece.rewrite, Piece.rewrite, renameAll, renameAll, if_congr (and_congr_right' hmem) rfl rfl]

variable {code rename}

variable (code) in
/-- one piece, before another name is replaced and after it -/
theorem written_eq_iff (hmark : word mark = false)
    (hrename : ∀ name, name.length + 1 < (rename name).length) {done : List (List α)}
    (hdone : key ∉ done) {m : μ} {name : List α} (hne : name ≠ []) (hword : ∀ c ∈ name, word c = true) :
    ((Piece.found m (name ++ [mark]) name).rewrite (renameAll code rename (done ++ [key]))).length ≤
        ((writtenPieces word mark (renameAll code rename done) (.found m (name ++ [mark]) name)).flatMap
          (Piece.rewrite (writeFor key (rename key)))).length ∧
      ((Piece.found m (name ++ [mark]) name).rewrite (renameAll code rename (done ++ [key])) =
        (writtenPieces word mark (renameAll code rename done) (.found m (name ++ [mark]) name)).flatMap
          (Piece.rewrite (writeFor key (rename key))) ↔
        (name = key → code m = true) ∧ (code m = true → name ∈ done → key ∉ qualifiers word mark (rename name))) := by
  rw [Piece.rewrite, writtenPieces, renameAll, renameAll]
  by_cases hrenamed : code m = true ∧ name ∈ done
  · have hother : name ≠ key := fun heq => hdone (heq ▸ hrenamed.2)
    obtain ⟨hle, hiff⟩ := writeFor_eq_iff hmark (hrename key) (rename name)
    rw [if_pos hrenamed, if_pos ⟨hrenamed.1, mem_append_left [key] hrenamed.2⟩]
    refine ⟨hle, hiff.trans ⟨fun h => ⟨fun heq => absurd heq hother, fun _ _ => h⟩, fun h => ?_⟩⟩
    exact h.2 hrenamed.1 hrenamed.2
  · have hpieces : (qualifier word mark).pieces (fun _ _ => ()) () none 0 (name ++ [mark] ++ []) = _ :=
      pieces_qualifier hmark [] hne hword rfl
    rw [append_nil] at hpieces
    have hrest : (code m = true → name ∈ done → key ∉ qualifiers word mark (rename name)) ↔ True :=
      iff_true_intro fun hcode hmem => absurd ⟨hcode, hmem⟩ hrenamed
    rw [if_neg hrenamed, Option.getD_none, hpieces, Pattern.pieces, flatMap_singleton, Piece.rewrite, writeFor,
      hrest, and_true]
    by_cases hname : name = key
    · subst hname
      rw [if_pos rfl, Option.getD_some]
      by_cases hcode : code m = true
      · rw [if_pos ⟨hcode, by simp⟩, Option.getD_some]
        exact ⟨le_refl _, iff_of_true rfl fun _ => hcode⟩
      · rw [if_neg fun h => hcode h.1, Option.getD_none, length_append, length_singleton]
        refine ⟨(hrename name).le, iff_of_false (fun heq => ?_) fun h => hcode (h rfl)⟩
        have hlength := hrename name
        rw [← heq, length_append, length_singleton] at hlength
        exact absurd hlength (lt_irrefl _)
    · have hkept : ¬(code m = true ∧ name ∈ done ++ [key]) := by
        rintro ⟨hcode, hmem⟩
        rcases mem_append.1 hmem with hmem | hmem
        · exact hrenamed ⟨hcode, hmem⟩
        · exact hname (mem_singleton.1 hmem)
      rw [if_neg hname, if_neg hkept]
      exact ⟨le_refl _, iff_of_true rfl fun h => absurd h hname⟩

/-- **One more name.** Where the names of a list are written anew, replacing the references to another name gives the
text with that name written anew too exactly if all qualifiers of the name stand in code, and none of what has been
written has one. -/
theorem sub_renameAll_iff (hmark : word mark = false)
    (hrename : ∀ name, name.length + 1 < (rename name).length ∧ ∃ y, rename name = y ++ [mark]) (hne : key ≠ []) (hword : ∀ c ∈ key, word c = true) {done : List (List α)} (hdone : key ∉ done)
    (step : μ → α → μ) (m₀ : μ) (s : List α) :
    (reference word mark key).sub (fun _ => rename key)
        (((qualifier word mark).pieces step m₀ none 0 s).flatMap (Piece.rewrite (renameAll code rename done))) =
      ((qualifier word mark).pieces step m₀ none 0 s).flatMap (Piece.rewrite (renameAll code rename (done ++ [key]))) ↔
    ∀ m text name, .found m text name ∈ (qualifier word mark).pieces step m₀ none 0 s →
      (name = key → code m = true) ∧ (code m = true → name ∈ done → key ∉ qualifiers word mark (rename name)) := by
  have hwrite : ∀ m name, ∀ x ∈ renameAll (α := α) code rename done m name, ∃ y, x = y ++ [mark] := by
    intro m name x hx
    rw [renameAll] at hx
    split_ifs at hx
    · cases hx
      exact (hrename name).2
    · cases hx
  have hpiece : ∀ p ∈ (qualifier word mark).pieces step m₀ none 0 s,
      (p.rewrite (renameAll code rename (done ++ [key]))).length ≤
          ((writtenPieces word mark (renameAll code rename done) p).flatMap
            (Piece.rewrite (writeFor key (rename key)))).length ∧
        (p.rewrite (renameAll code rename (done ++ [key])) =
          (writtenPieces word mark (renameAll code rename done) p).flatMap (Piece.rewrite (writeFor key (rename key))) ↔
          ∀ m text name, p = .found m text name → (name = key → code m = true) ∧
            (code m = true → name ∈ done → key ∉ qualifiers word mark (rename name))) := by
    intro p hp
    cases p with
    | same c => exact ⟨le_refl _, iff_of_true rfl nofun⟩
    | found m text name =>
      obtain ⟨rfl, hname, hletters⟩ := found_qualifier hmark hp
      obtain ⟨hle, hiff⟩ := written_eq_iff code hmark (fun name => (hrename name).1) hdone hname hletters
      refine ⟨hle, hiff.trans ⟨fun h m' text' name' heq => ?_, fun h => h m _ name rfl⟩⟩
      cases heq
      exact h
  rw [Pattern.sub, sub_reference hmark hne hword (rename key) (fun _ _ => ()) () none, pieces_rewrite hmark hwrite,
    flatMap_assoc, eq_comm, flatMap_eq_iff_of_length fun p hp => (hpiece p hp).1]
  constructor
  · exact fun h m text name hmem => (hpiece _ hmem).2.1 (h _ hmem) m text name rfl
  · intro h p hp
    refine (hpiece p hp).2.2 fun m text name heq => h m text name (heq ▸ hp)

end Names

end Qualifiers

end Langbridge.Core
