/-
The tokens of SQL texts under standard quoting: white space, words, numbers, `'strings'` and `"names"` with doubled
quotes, `-- line` and `/* block */` comments, and single characters.
-/
import Langbridge.Core.Munch
import Langbridge.Core.Text

namespace Langbridge.Runtime

open Core List PyText

/-- where the reading of a token stands; `textEnd` and `nameEnd` have read a quote that ends the token unless another one
follows -/
inductive LexState where
  | space
  | word
  | number
  | exponent
  | text
  | textEnd
  | name
  | nameEnd
  | dash
  | lineComment
  | slash
  | blockComment
  | blockStar
  | blockEnd
  | symbol
  deriving DecidableEq

section Tokens

variable [PyText]

def LexState.first (c : Char) : LexState :=
  if c.isWhitespace then .space
  else if c = '\'' then .text
  else if c = '"' then .name
  else if c = '-' then .dash
  else if c = '/' then .slash
  else if c.isDigit then .number
  else if isWord c then .word
  else .symbol

def LexState.step : LexState → Char → Option LexState
  | .space, c => if c.isWhitespace then some .space else none
  | .word, c => if isWord c then some .word else none
  | .number, c =>
    if c = 'e' || c = 'E' then some .exponent
    else if isWord c || c = '.' then some .number
    else none
  | .exponent, c =>
    if c = '+' || c = '-' then some .number
    else if isWord c || c = '.' then some .number
    else none
  | .text, c => if c = '\'' then some .textEnd else some .text
  | .textEnd, c => if c = '\'' then some .text else none
  | .name, c => if c = '"' then some .nameEnd else some .name
  | .nameEnd, c => if c = '"' then some .name else none
  | .dash, c => if c = '-' then some .lineComment else none
  | .lineComment, c => if c = '\n' then none else some .lineComment
  | .slash, c => if c = '*' then some .blockComment else none
  | .blockComment, c => if c = '*' then some .blockStar else some .blockComment
  | .blockStar, c => if c = '/' then some .blockEnd else if c = '*' then some .blockStar else some .blockComment
  | .blockEnd, _ => none
  | .symbol, _ => none

def sqlTokens : Munch Char LexState := ⟨LexState.first, LexState.step⟩

/-- the text between quotes, with each doubled quote read as one -/
def unescape : List Char → List Char
  | '\'' :: '\'' :: cs => '\'' :: unescape cs
  | c :: cs => c :: unescape cs
  | [] => []

def stringValue (t : Token Char LexState) : Option (List Char) :=
  if t.state = .textEnd then some (unescape (t.text.drop 1).dropLast) else none

/-! ## Contents and code -/

/-- the token is a string, a quoted name or a comment -/
def LexState.isContent : LexState → Bool
  | .text | .textEnd | .name | .nameEnd | .lineComment | .blockComment | .blockStar | .blockEnd => true
  | .space | .word | .number | .exponent | .dash | .slash | .symbol => false

/-- the characters that a token with contents begins and ends at -/
def marks : List Char := ['\'', '"', '-', '/', '\n']

/-- the token may come to have contents -/
def LexState.opened : LexState → Bool
  | .dash | .slash => true
  | s => s.isContent

def LexState.closed : LexState → Bool
  | .textEnd | .nameEnd | .blockEnd => true
  | _ => false

/-- a token with contents begins with a mark, and ends with one where it is closed -/
structure Marked (t : Token Char LexState) : Prop where
  nonempty : t.text ≠ []
  head : t.state.opened = true → ∀ c ∈ t.text.head?, c ∈ marks
  last : t.state.closed = true → ∀ c ∈ t.text.getLast?, c ∈ marks

theorem marked_first (c : Char) : Marked ⟨LexState.first c, [c]⟩ := by
  have hopened : (LexState.first c).opened = true → c ∈ marks := by
    unfold LexState.first
    split_ifs <;> simp_all [LexState.opened, LexState.isContent, marks]
  have hclosed : (LexState.first c).closed = false := by
    unfold LexState.first
    split_ifs <;> rfl
  refine ⟨cons_ne_nil _ _, ?_, ?_⟩
  · intro h d hd
    cases hd
    exact hopened h
  · intro h
    rw [hclosed] at h
    cases h

theorem step_opened {s s' : LexState} {c : Char} (h : LexState.step s c = some s') :
    (s'.opened = true → s.opened = true) ∧ (s'.closed = true → c ∈ marks) := by
  cases s <;> simp only [LexState.step] at h <;> (try split_ifs at h) <;> cases h <;>
    simp_all [LexState.opened, LexState.isContent, LexState.closed, marks]

theorem marked_step (t : Token Char LexState) (c : Char) (s : LexState) (ht : Marked t)
    (h : LexState.step t.state c = some s) : Marked ⟨s, t.text ++ [c]⟩ := by
  obtain ⟨hopened, hclosed⟩ := step_opened h
  refine ⟨append_ne_nil_of_left_ne_nil ht.nonempty _, ?_, ?_⟩
  · intro hs d hd
    rw [head?_append_of_ne_nil _ ht.nonempty] at hd
    exact ht.head (hopened hs) d hd
  · intro hs d hd
    rw [getLast?_concat, Option.mem_def, Option.some.injEq] at hd
    exact hd ▸ hclosed hs

theorem lex_marked (text : List Char) : ∀ t ∈ sqlTokens.lex text, Marked t :=
  Munch.lex_inv (M := sqlTokens) marked_first marked_step text

/-- a token with contents that ends is closed, or is a comment that a line end follows -/
theorem step_ends {s : LexState} {c : Char} (hs : s.isContent = true) (h : LexState.step s c = none) :
    s.closed = true ∨ c ∈ marks := by
  cases s <;> simp only [LexState.step] at h <;> (try split_ifs at h) <;>
    simp_all [LexState.isContent, LexState.closed, marks]

variable {w : List Char}

/-- a word without marks is not cut by the edges of the tokens with contents -/
theorem lex_separated (hw : ∀ c ∈ marks, c ∉ w) (text : List Char) :
    Token.Separated LexState.isContent w (sqlTokens.lex text) := by
  refine ⟨fun t ht => (lex_marked text t ht).nonempty, ?_⟩
  refine IsChain.imp_of_mem_imp ?_ (Munch.lex_stops (M := sqlTokens) text)
  rintro t u ht hu ⟨c, cs, htext, hstop⟩ (hcontent | hcontent)
  · rcases step_ends hcontent hstop with hclosed | hc
    · exact .inl fun d hd => hw d ((lex_marked text t ht).last hclosed d hd)
    · right
      intro d hd
      rw [htext, head?_cons, Option.mem_def, Option.some.injEq] at hd
      exact hd ▸ hw c hc
  · right
    have hopened : u.state.opened = true := by
      cases hs : u.state <;> rw [hs] at hcontent <;> first | rfl | cases hcontent
    exact fun d hd => hw d ((lex_marked text u hu).head hopened d hd)

/-- **Words in texts.** A word without marks stands in the contents of one token, or in the code between such tokens. -/
theorem infix_lex_iff (hw : ∀ c ∈ marks, c ∉ w) (hne : w ≠ []) (text : List Char) :
    w <:+: text ↔ (∃ t ∈ sqlTokens.lex text, t.state.isContent = true ∧ w <:+: t.text) ∨
      Token.InOpen LexState.isContent w (sqlTokens.lex text) := by
  have h := (lex_separated hw text).infix_iff hne
  rw [Munch.lex_text] at h
  exact h

end Tokens

end Langbridge.Runtime
