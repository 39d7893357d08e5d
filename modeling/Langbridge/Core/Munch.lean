/-
Tokenizers with one character of lookahead. A token begins with a character and takes in the next ones as long as its
state allows; the next token begins where it stops.

Main results: `lex_append`, `lex_flatten_iff`, `Token.Separated.infix_iff`.
-/
import Mathlib.Tactic

namespace Langbridge.Core

open List Option

/-- the state that a character begins a token in, and the state after one more character where the token takes it in -/
structure Munch (α σ : Type) where
  first : α → σ
  step : σ → α → Option σ

structure Token (α σ : Type) where
  state : σ
  text : List α
  deriving DecidableEq

namespace Munch

variable {α σ : Type} (M : Munch α σ)

def run (t : Token α σ) : List α → List (Token α σ)
  | [] => [t]
  | c :: cs =>
    match M.step t.state c with
    | some s => run ⟨s, t.text ++ [c]⟩ cs
    | none => t :: run ⟨M.first c, [c]⟩ cs

def last (t : Token α σ) : List α → Token α σ
  | [] => t
  | c :: cs =>
    match M.step t.state c with
    | some s => last ⟨s, t.text ++ [c]⟩ cs
    | none => last ⟨M.first c, [c]⟩ cs

/-- the tokens of a text -/
def lex : List α → List (Token α σ)
  | [] => []
  | c :: cs => M.run ⟨M.first c, [c]⟩ cs

/-- the last token of a text takes in the first character of another -/
def joins : List α → List α → Bool
  | c :: cs, d :: _ => (M.step (M.last ⟨M.first c, [c]⟩ cs).state d).isSome
  | _, _ => false

/-- no part takes in the character after it -/
def Apart : List (List α) → Prop
  | [] => True
  | p :: ps => M.joins p ps.flatten = false ∧ Apart ps

variable {M}

/-- a token that is not finished is the beginning of the first one -/
theorem run_head (t : Token α σ) (cs : List α) : ∃ u rest, M.run t cs = u :: rest ∧ t.text <+: u.text := by
  induction cs generalizing t with
  | nil => exact ⟨t, [], rfl, prefix_refl _⟩
  | cons c cs ih =>
    rw [run]
    cases M.step t.state c with
    | none => exact ⟨t, _, rfl, prefix_refl _⟩
    | some s =>
      obtain ⟨u, rest, hrun, htext⟩ := ih ⟨s, t.text ++ [c]⟩
      exact ⟨u, rest, hrun, (prefix_append _ _).trans htext⟩

theorem run_append (t : Token α σ) (a : List α) (c : α) (b : List α) (h : M.step (M.last t a).state c = none) :
    M.run t (a ++ c :: b) = M.run t a ++ M.lex (c :: b) := by
  induction a generalizing t with
  | nil =>
    rw [last] at h
    simp only [nil_append, run, h, lex, cons_append]
  | cons x a ih =>
    rw [last] at h
    rw [cons_append, run, run]
    cases hx : M.step t.state x with
    | none =>
      rw [hx] at h
      exact congrArg (t :: ·) (ih _ h)
    | some s =>
      rw [hx] at h
      exact ih _ h

/-- where the tokens up to a place are those of the text up to it, the place lies between two tokens -/
theorem step_eq_none (t : Token α σ) (a : List α) (c : α) (b : List α) (rest : List (Token α σ))
    (h : M.run t (a ++ c :: b) = M.run t a ++ rest) : M.step (M.last t a).state c = none := by
  induction a generalizing t with
  | nil =>
    rw [last]
    cases hc : M.step t.state c with
    | none => rfl
    | some s =>
      -- the token has taken in one more character
      simp only [nil_append, run, hc] at h
      obtain ⟨u, rest', hrun, htext⟩ := run_head (M := M) ⟨s, t.text ++ [c]⟩ b
      rw [hrun] at h
      have hu : u = t := (List.cons.inj h).1
      have hlength := htext.length_le
      rw [hu, length_append, length_singleton] at hlength
      omega
  | cons x a ih =>
    rw [cons_append, run, run] at h
    rw [last]
    cases hx : M.step t.state x with
    | none =>
      rw [hx] at h
      exact ih _ (List.cons.inj h).2
    | some s =>
      rw [hx] at h
      exact ih _ h

/-- **Cutting a text.** Where no token is cut, the tokens of a text are those of its parts. -/
theorem lex_append (a b : List α) (h : M.joins a b = false) : M.lex (a ++ b) = M.lex a ++ M.lex b := by
  cases a with
  | nil => rfl
  | cons c cs =>
    cases b with
    | nil => rw [append_nil, lex, lex, append_nil]
    | cons d ds =>
      rw [joins, isSome_eq_false_iff, isNone_iff_eq_none] at h
      exact run_append _ cs d ds h

theorem joins_eq_false (a b : List α) (rest : List (Token α σ)) (h : M.lex (a ++ b) = M.lex a ++ rest) :
    M.joins a b = false := by
  cases a with
  | nil => rfl
  | cons c cs =>
    cases b with
    | nil => rfl
    | cons d ds =>
      rw [joins, isSome_eq_false_iff, isNone_iff_eq_none]
      exact step_eq_none _ cs d ds rest h

/-- **Texts made of parts.** The tokens of a text are those of its parts if and only if no part takes in the character
after it. -/
theorem lex_flatten_iff (parts : List (List α)) : M.lex parts.flatten = parts.flatMap M.lex ↔ M.Apart parts := by
  induction parts with
  | nil => exact ⟨fun _ => trivial, fun _ => rfl⟩
  | cons p ps ih =>
    rw [flatten_cons, flatMap_cons, Apart]
    constructor
    · intro h
      have hjoins := joins_eq_false p ps.flatten _ h
      rw [lex_append p ps.flatten hjoins] at h
      exact ⟨hjoins, ih.1 (append_cancel_left h)⟩
    · rintro ⟨hjoins, hapart⟩
      rw [lex_append p ps.flatten hjoins, ih.2 hapart]

/-! ## What holds of the tokens of a text -/

/-- what holds of a token when it begins and is kept by each character it takes in holds of every token -/
theorem run_inv {P : Token α σ → Prop} (hfirst : ∀ c, P ⟨M.first c, [c]⟩)
    (hstep : ∀ t c s, P t → M.step t.state c = some s → P ⟨s, t.text ++ [c]⟩) {t : Token α σ} (ht : P t) (cs : List α) :
    ∀ u ∈ M.run t cs, P u := by
  induction cs generalizing t with
  | nil =>
    intro u hu
    rw [run, mem_singleton] at hu
    exact hu ▸ ht
  | cons c cs ih =>
    intro u hu
    rw [run] at hu
    cases hc : M.step t.state c with
    | some s =>
      rw [hc] at hu
      exact ih (hstep t c s ht hc) u hu
    | none =>
      rw [hc] at hu
      rcases mem_cons.1 hu with rfl | hu
      · exact ht
      · exact ih (hfirst c) u hu

theorem lex_inv {P : Token α σ → Prop} (hfirst : ∀ c, P ⟨M.first c, [c]⟩)
    (hstep : ∀ t c s, P t → M.step t.state c = some s → P ⟨s, t.text ++ [c]⟩) (cs : List α) : ∀ u ∈ M.lex cs, P u := by
  cases cs with
  | nil =>
    intro u hu
    cases hu
  | cons c cs => exact run_inv hfirst hstep (hfirst c) cs

theorem run_text (t : Token α σ) (cs : List α) : (M.run t cs).flatMap Token.text = t.text ++ cs := by
  induction cs generalizing t with
  | nil => rw [run, flatMap_singleton, append_nil]
  | cons c cs ih =>
    rw [run]
    cases M.step t.state c with
    | some s => exact (ih _).trans (append_assoc _ _ _)
    | none => exact (flatMap_cons).trans (congrArg (t.text ++ ·) (ih _))

theorem lex_text (cs : List α) : (M.lex cs).flatMap Token.text = cs := by
  cases cs with
  | nil => rfl
  | cons c cs => exact run_text _ cs

theorem run_ne_nil (t : Token α σ) (cs : List α) : M.run t cs ≠ [] := by
  obtain ⟨u, rest, hrun, -⟩ := run_head (M := M) t cs
  rw [hrun]
  exact cons_ne_nil u rest

/-- a text that is one token so far goes on as that token -/
theorem run_of_singleton {t u : Token α σ} {cs : List α} (h : M.run t cs = [u]) (more : List α) :
    M.run t (cs ++ more) = M.run u more := by
  induction cs generalizing t with
  | nil =>
    rw [nil_append, (List.cons.inj h).1]
  | cons c cs ih =>
    rw [run] at h
    rw [cons_append, run]
    cases hc : M.step t.state c with
    | some s =>
      rw [hc] at h
      exact ih h
    | none =>
      rw [hc] at h
      exact absurd (List.cons.inj h).2 (run_ne_nil _ cs)

theorem lex_token (cs : List α) : ∀ t ∈ M.lex cs, M.lex t.text = [t] := by
  refine lex_inv (fun c => rfl) (fun t c s ht hs => ?_) cs
  cases htext : t.text with
  | nil =>
    rw [htext] at ht
    cases ht
  | cons d ds =>
    rw [htext, lex] at ht
    rw [cons_append, lex, run_of_singleton ht [c], run, hs, htext]
    rfl

/-- a state that takes in the characters of a text -/
theorem run_stay {s : σ} {cs : List α} (h : ∀ c ∈ cs, M.step s c = some s) (acc rest : List α) :
    M.run ⟨s, acc⟩ (cs ++ rest) = M.run ⟨s, acc ++ cs⟩ rest := by
  induction cs generalizing acc with
  | nil => rw [nil_append, append_nil]
  | cons c cs ih =>
    rw [cons_append, run, h c mem_cons_self]
    refine (ih (fun d hd => h d (mem_cons_of_mem c hd)) (acc ++ [c])).trans ?_
    rw [append_assoc, singleton_append]

variable (M) in
/-- the first token does not take in the first character of the second -/
def Stops (t u : Token α σ) : Prop := ∃ c cs, u.text = c :: cs ∧ M.step t.state c = none

theorem run_stops (t : Token α σ) (cs : List α) : (M.run t cs).IsChain M.Stops := by
  induction cs generalizing t with
  | nil =>
    exact isChain_singleton t
  | cons c cs ih =>
    rw [run]
    cases hc : M.step t.state c with
    | some s => exact ih _
    | none =>
      obtain ⟨u, rest, hrun, htext⟩ := run_head (M := M) ⟨M.first c, [c]⟩ cs
      have hrest := ih ⟨M.first c, [c]⟩
      rw [hrun] at hrest
      obtain ⟨more, hmore⟩ := htext
      have hstops : M.Stops t u := ⟨c, more, hmore.symm, hc⟩
      rw [hrun]
      exact isChain_cons_cons.2 ⟨hstops, hrest⟩

theorem lex_stops (cs : List α) : (M.lex cs).IsChain M.Stops := by
  cases cs with
  | nil => exact isChain_nil
  | cons c cs => exact run_stops _ cs

end Munch

/-! ## Words in the text of tokens -/

namespace Token

variable {α σ : Type} (shut : σ → Bool) (w : List α)

/-- no occurrence of the word goes over the edge between two tokens -/
def Cut (t u : Token α σ) : Prop := (∀ c ∈ t.text.getLast?, c ∉ w) ∨ ∀ c ∈ u.text.head?, c ∉ w

/-- the tokens are not empty, and no occurrence of the word goes over the edge of a shut one -/
structure Separated (ts : List (Token α σ)) : Prop where
  nonempty : ∀ t ∈ ts, t.text ≠ []
  cut : ts.IsChain fun t u => shut t.state = true ∨ shut u.state = true → Cut w t u

def InOpen (ts : List (Token α σ)) : Prop :=
  ∃ row, row <:+: ts ∧ (∀ t ∈ row, shut t.state = false) ∧ w <:+: row.flatMap Token.text

variable {shut w}

theorem Separated.tail {t : Token α σ} {ts : List (Token α σ)} (h : Separated shut w (t :: ts)) : Separated shut w ts :=
  ⟨fun u hu => h.nonempty u (mem_cons_of_mem _ hu), h.cut.tail⟩

/-- two tokens that a word runs over are open -/
theorem Separated.edge {t u : Token α σ} {ts : List (Token α σ)} (h : Separated shut w (t :: u :: ts)) {l₁ l₂ : List α}
    (h₁ : l₁ ⊆ w) (h₂ : l₂ ⊆ w) (hne₁ : l₁ ≠ []) (hne₂ : l₂ ≠ []) (hsuffix : l₁ <:+ t.text)
    (hstart : l₂ <+: (u :: ts).flatMap Token.text) : shut t.state = false ∧ shut u.state = false := by
  have hcut := (isChain_cons_cons.1 h.cut).1
  obtain ⟨c, cs, hu⟩ := exists_cons_of_ne_nil (h.nonempty u (mem_cons_of_mem _ mem_cons_self))
  have hnot : ¬Cut w t u := by
    rintro (hlast | hhead)
    · obtain ⟨before, hbefore⟩ := hsuffix
      refine hlast (l₁.getLast hne₁) ?_ (h₁ (getLast_mem hne₁))
      rw [← hbefore, getLast?_append_of_ne_nil _ hne₁, getLast?_eq_some_getLast hne₁, mem_def]
    · obtain ⟨d, ds, rfl⟩ := exists_cons_of_ne_nil hne₂
      rw [flatMap_cons, hu] at hstart
      have hd : d = c := (cons_prefix_cons.1 hstart).1
      refine hhead c (by rw [hu]; rfl) (hd ▸ h₂ mem_cons_self)
  by_contra hshut
  rw [not_and_or, Bool.not_eq_false, Bool.not_eq_false] at hshut
  exact hnot (hcut hshut)

/-- the rest of a word that begins in an open token stands in the open tokens after it -/
theorem Separated.prefix_open {t : Token α σ} {ts : List (Token α σ)} (h : Separated shut w (t :: ts)) {l₁ l₂ : List α}
    (h₁ : l₁ ⊆ w) (h₂ : l₂ ⊆ w) (hne₁ : l₁ ≠ []) (hsuffix : l₁ <:+ t.text) (hstart : l₂ <+: ts.flatMap Token.text) :
    ∃ row, row <+: ts ∧ (∀ u ∈ row, shut u.state = false) ∧ l₂ <+: row.flatMap Token.text := by
  induction ts generalizing t l₁ l₂ with
  | nil => exact ⟨[], prefix_refl _, fun _ hu => absurd hu not_mem_nil, hstart⟩
  | cons u us ih =>
    by_cases hne₂ : l₂ = []
    · exact ⟨[], nil_prefix, fun _ hu => absurd hu not_mem_nil, hne₂ ▸ nil_prefix⟩
    · have hu := (h.edge h₁ h₂ hne₁ hne₂ hsuffix hstart).2
      rw [flatMap_cons] at hstart
      rcases prefix_or_prefix_of_prefix hstart (prefix_append u.text _) with hin | hover
      · refine ⟨[u], ⟨us, rfl⟩, ?_, ?_⟩
        · intro v hv
          rw [mem_singleton] at hv
          exact hv ▸ hu
        · rw [flatMap_singleton]
          exact hin
      · obtain ⟨l₃, rfl⟩ := hover
        rw [prefix_append_right_inj] at hstart
        have hutext : u.text ⊆ w := fun c hc => h₂ (mem_append_left _ hc)
        have hl₃ : l₃ ⊆ w := fun c hc => h₂ (mem_append_right _ hc)
        obtain ⟨row, hrow, hopen, hl⟩ := ih h.tail hutext hl₃ (h.tail.nonempty u mem_cons_self)
          (suffix_refl _) hstart
        refine ⟨u :: row, cons_prefix_cons.2 ⟨rfl, hrow⟩, ?_, ?_⟩
        · intro v hv
          rcases mem_cons.1 hv with rfl | hv
          · exact hu
          · exact hopen v hv
        · rw [flatMap_cons, prefix_append_right_inj]
          exact hl

/-- **Words between shut tokens.** A word in the text of tokens stands in one shut token or in open ones in a row. -/
theorem Separated.infix_iff {ts : List (Token α σ)} (h : Separated shut w ts) (hw : w ≠ []) :
    w <:+: ts.flatMap Token.text ↔ (∃ t ∈ ts, shut t.state = true ∧ w <:+: t.text) ∨ InOpen shut w ts := by
  constructor
  · intro hinfix
    induction ts with
    | nil => exact absurd (infix_nil.1 hinfix) hw
    | cons t ts ih =>
      rw [flatMap_cons, infix_append_iff_ne_nil] at hinfix
      rcases hinfix with hin | hrest | ⟨l₁, l₂, hne₁, hne₂, hl, hsuffix, hstart⟩
      · cases ht : shut t.state with
        | true => exact .inl ⟨t, mem_cons_self, ht, hin⟩
        | false =>
          refine .inr ⟨[t], ⟨[], ts, rfl⟩, ?_, ?_⟩
          · intro u hu
            rw [mem_singleton] at hu
            exact hu ▸ ht
          · rw [flatMap_singleton]
            exact hin
      · rcases ih h.tail hrest with ⟨u, hu, hshut, hin⟩ | ⟨row, hrow, hopen, hin⟩
        · exact .inl ⟨u, mem_cons_of_mem _ hu, hshut, hin⟩
        · exact .inr ⟨row, hrow.trans (suffix_cons t ts).isInfix, hopen, hin⟩
      · have h₁ : l₁ ⊆ w := fun c hc => hl ▸ mem_append_left _ hc
        have h₂ : l₂ ⊆ w := fun c hc => hl ▸ mem_append_right _ hc
        obtain ⟨row, hrow, hopen, hin⟩ := h.prefix_open h₁ h₂ hne₁ hsuffix hstart
        cases ts with
        | nil => exact absurd (prefix_nil.1 hstart) hne₂
        | cons u us =>
          have ht := (h.edge h₁ h₂ hne₁ hne₂ hsuffix hstart).1
          refine .inr ⟨t :: row, (cons_prefix_cons.2 ⟨rfl, hrow⟩).isInfix, ?_, ?_⟩
          · intro v hv
            rcases mem_cons.1 hv with rfl | hv
            · exact ht
            · exact hopen v hv
          · rw [flatMap_cons, hl, infix_append_iff]
            exact .inr (.inr ⟨l₁, l₂, rfl, hsuffix, hin⟩)
  · have hflat : ∀ {row : List (Token α σ)}, row <:+: ts → row.flatMap Token.text <:+: ts.flatMap Token.text := by
      rintro row ⟨before, after, rfl⟩
      rw [flatMap_append, flatMap_append]
      exact infix_append _ _ _
    rintro (⟨t, ht, -, hin⟩ | ⟨row, hrow, -, hin⟩)
    · obtain ⟨before, after, rfl⟩ := append_of_mem ht
      have ht : [t] <:+: before ++ t :: after := ⟨before, after, by rw [append_assoc]; rfl⟩
      have htext := hflat ht
      rw [flatMap_singleton] at htext
      exact hin.trans htext
    · exact hin.trans (hflat hrow)

end Token

end Langbridge.Core
