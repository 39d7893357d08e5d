/-
Bound parameters in the text of a query (`runtime/hosting/odbc.py`): wherever `$n` stands in the text, also in strings,
comments and names, it is replaced by a literal. What this should do is said with PostgreSQL's tokens: only parameter
tokens are replaced, each by one literal, and the tokens around them stay as they are.
-/
import Langbridge.Runtime.OdbcGateway

namespace Langbridge.Runtime.OdbcParams

open Core Odbc List PyText

/-! ## PostgreSQL's tokens -/

/-- where the reading of a token stands. `textEnd`, `escapeEnd` and `nameEnd` have read a quote that ends the token
unless another one follows, `closing` a part of what ends a dollar-quoted string; `junk` is no token. -/
inductive PgState where
  | space
  | word
  | stringPrefix
  | escapePrefix
  | unicodePrefix
  | unicodeAmp
  | integer
  | fraction
  | exponent
  | exponentSign
  | exponentDigits
  | junk
  | dot
  | dollar
  | param
  | tag (tag : List Char)
  | body (tag : List Char)
  | closing (tag rest : List Char)
  | bodyEnd
  | text
  | textEnd
  | escapeText
  | backslash
  | escapeEnd
  | name
  | nameEnd
  | dash
  | lineComment
  | slash
  | block (depth : ℕ)
  | blockSlash (depth : ℕ)
  | blockStar (depth : ℕ)
  | blockEnd
  | symbol
  deriving DecidableEq

/-- letters, the underscore and all that is not ASCII -/
def isStart (c : Char) : Bool := c.isAlpha || c = '_' || decide (128 ≤ c.toNat)

def isPart (c : Char) : Bool := isStart c || c.isDigit || c = '$'

def PgState.first (c : Char) : PgState :=
  if c.isWhitespace then .space
  else if c = '\'' then .text
  else if c = '"' then .name
  else if c = '-' then .dash
  else if c = '/' then .slash
  else if c = '$' then .dollar
  else if c = '.' then .dot
  else if c.isDigit then .integer
  else if c = 'e' || c = 'E' then .escapePrefix
  else if c = 'u' || c = 'U' then .unicodePrefix
  else if c ∈ [ 'b', 'B', 'x', 'X', 'n', 'N'] then .stringPrefix
  else if isStart c then .word
  else .symbol

def PgState.step : PgState → Char → Option PgState
  | .space, c => if c.isWhitespace then some .space else none
  | .word, c => if isPart c then some .word else none
  | .stringPrefix, c => if c = '\'' then some .text else if isPart c then some .word else none
  | .escapePrefix, c => if c = '\'' then some .escapeText else if isPart c then some .word else none
  | .unicodePrefix, c => if c = '&' then some .unicodeAmp else if isPart c then some .word else none
  | .unicodeAmp, c => if c = '\'' then some .text else if c = '"' then some .name else none
  | .integer, c =>
    if c.isDigit then some .integer
    else if c = '.' then some .fraction
    else if c = 'e' || c = 'E' then some .exponent
    else if isStart c then some .junk
    else none
  | .fraction, c =>
    if c.isDigit then some .fraction
    else if c = 'e' || c = 'E' then some .exponent
    else if isStart c then some .junk
    else none
  | .exponent, c =>
    if c.isDigit then some .exponentDigits
    else if c = '+' || c = '-' then some .exponentSign
    else if isStart c then some .junk
    else none
  | .exponentSign, c => if c.isDigit then some .exponentDigits else none
  | .exponentDigits, c => if c.isDigit then some .exponentDigits else if isStart c then some .junk else none
  | .junk, c => if isPart c then some .junk else none
  | .dot, c => if c.isDigit then some .fraction else none
  | .dollar, c =>
    if c = '0' then some .junk
    else if c.isDigit then some .param
    else if c = '$' then some (.body [])
    else if isStart c then some (.tag [c])
    else none
  | .param, c => if c.isDigit then some .param else if isStart c then some .junk else none
  | .tag t, c => if c = '$' then some (.body t) else if isPart c then some (.tag (t ++ [c])) else none
  | .body t, c => if c = '$' then some (.closing t (t ++ [ '$'])) else some (.body t)
  | .closing t rest, c =>
    if rest = [c] then some .bodyEnd
    else if rest.head? = some c then some (.closing t rest.tail)
    else if c = '$' then some (.closing t (t ++ [ '$']))
    else some (.body t)
  | .bodyEnd, _ => none
  | .text, c => if c = '\'' then some .textEnd else some .text
  | .textEnd, c => if c = '\'' then some .text else none
  | .escapeText, c => if c = '\'' then some .escapeEnd else if c = '\\' then some .backslash else some .escapeText
  | .backslash, _ => some .escapeText
  | .escapeEnd, c => if c = '\'' then some .escapeText else none
  | .name, c => if c = '"' then some .nameEnd else some .name
  | .nameEnd, c => if c = '"' then some .name else none
  | .dash, c => if c = '-' then some .lineComment else none
  | .lineComment, c => if c = '\n' || c = '\r' then none else some .lineComment
  | .slash, c => if c = '*' then some (.block 0) else none
  | .block d, c =>
    if c = '*' then some (.blockStar d) else if c = '/' then some (.blockSlash d) else some (.block d)
  | .blockSlash d, c =>
    if c = '*' then some (.block (d + 1)) else if c = '/' then some (.blockSlash d) else some (.block d)
  | .blockStar d, c =>
    if c = '/' then (if d = 0 then some .blockEnd else some (.block (d - 1)))
    else if c = '*' then some (.blockStar d)
    else some (.block d)
  | .blockEnd, _ => none
  | .symbol, _ => none

def pgTokens : Munch Char PgState := ⟨PgState.first, PgState.step⟩

abbrev PgToken := Token Char PgState

def paramNumber (t : PgToken) : Option ℕ := if t.state = .param then some (digitsValue t.text.tail) else none

/-- the keywords of literals -/
def constants : List (List Char) := ["NULL".toList, "TRUE".toList, "FALSE".toList]

def literalTypes : List (List Char) := ["TIMESTAMP".toList, "DATE".toList, "TIME".toList]

/-- one literal: a constant, a number without a sign, a string, or a string after its type -/
def IsLiteral : List PgToken → Prop
  | [t] => t.state ∈ [.integer, .fraction, .exponentDigits, .textEnd] ∨ (t.state = .word ∧ t.text ∈ constants)
  | [type, blank, t] => type.state = .word ∧ type.text ∈ literalTypes ∧ blank.state = .space ∧ t.state = .textEnd
  | _ => False

/-! ## Parameters -/

/-- digits, at least one -/
structure Digits where
  text : List Char
  nonempty : text ≠ []
  digits : ∀ c ∈ text, c.isDigit = true

/-- a finite number as `str` and `format` write it, without its sign; the exponent has a sign of its own -/
structure Number where
  whole : Digits
  fraction : Option Digits
  exponent : Option (Bool × Digits)

def fractionText : Option Digits → List Char
  | none => []
  | some f => '.' :: f.text

def exponentText : Option (Bool × Digits) → List Char
  | none => []
  | some (minus, e) => 'e' :: (if minus then '-' else '+') :: e.text

def Number.text (x : Number) : List Char := x.whole.text ++ (fractionText x.fraction ++ exponentText x.exponent)

/-- what is not finite: of floats, and of decimals with their payload -/
inductive Special where
  | nan
  | inf
  | infinity
  | quiet (payload : List Char) (digits : ∀ c ∈ payload, c.isDigit = true)
  | signaling (payload : List Char) (digits : ∀ c ∈ payload, c.isDigit = true)

def Special.text : Special → List Char
  | .nan => "nan".toList
  | .inf => "inf".toList
  | .infinity => "Infinity".toList
  | .quiet payload _ => 'N' :: 'a' :: 'N' :: payload
  | .signaling payload _ => 's' :: 'N' :: 'a' :: 'N' :: payload

/-- a float or a decimal -/
inductive Numeral where
  | finite (negative : Bool) (x : Number)
  | special (negative : Bool) (x : Special)

def signed (negative : Bool) (text : List Char) : List Char := if negative then '-' :: text else text

def Numeral.text : Numeral → List Char
  | .finite negative x => signed negative x.text
  | .special negative x => signed negative x.text

/-- a parameter; `other` holds what `str` gives -/
inductive Value where
  | none
  | bool (b : Bool)
  | int (n : ℤ)
  | float (x : Numeral)
  | decimal (x : Numeral)
  | datetime (m : SqlParams.MomentText)
  | date (m : SqlParams.MomentText)
  | time (m : SqlParams.MomentText)
  | other (text : List Char)

def sqlLiteral : Value → List Char
  | .none => "NULL".toList
  | .bool b => if b then "TRUE".toList else "FALSE".toList
  | .int n => (toString n).toList
  | .float x => x.text
  | .decimal x => x.text
  | .datetime m => "TIMESTAMP '".toList ++ (m.text ++ [ '\''])
  | .date m => "DATE '".toList ++ (m.text ++ [ '\''])
  | .time m => "TIME '".toList ++ (m.text ++ [ '\''])
  | .other text => SqlParams.quoted text

/-- `re.sub` with `_replace`; `none` is the `ValueError` of a missing parameter -/
def replaceParams (parameters : List Value) : List Part → Option (List Char)
  | [] => some []
  | .char c :: ps => (replaceParams parameters ps).map (c :: ·)
  | .param n :: ps => parameters[n - 1]?.bind fun v => (replaceParams parameters ps).map (sqlLiteral v ++ ·)

section Render

variable [PyClasses]

def renderQueryWithParameters (query : List Char) (parameters : List Value) : Option (List Char) :=
  if parameters.isEmpty then some query else replaceParams parameters (paramParts 0 query)

/-! ## What rendering should do -/

/-- the parameter that a token stands for, if there is one -/
def valueOf (parameters : List Value) (t : PgToken) : Option Value :=
  (paramNumber t).bind fun n => parameters[n - 1]?

/-- the tokens that stand for a token of the query -/
def rendered (parameters : List Value) (t : PgToken) : List PgToken :=
  match valueOf parameters t with
  | some v => pgTokens.lex (sqlLiteral v)
  | none => [t]

/-- the tokens of the text are those of the query, with the tokens of one literal for each parameter -/
def KeepsStructure (query : List Char) (parameters : List Value) : Prop :=
  ∀ text, renderQueryWithParameters query parameters = some text →
    pgTokens.lex text = (pgTokens.lex query).flatMap (rendered parameters) ∧
      ∀ t ∈ pgTokens.lex query, ∀ v, valueOf parameters t = some v → IsLiteral (pgTokens.lex (sqlLiteral v))

/-! ## The condition -/

def Numeral.Plain : Numeral → Prop
  | .finite negative _ => negative = false
  | .special _ _ => False

/-- the values that are written as one literal: all but negative numbers and numbers that are not finite -/
def Value.Plain : Value → Prop
  | .int n => 0 ≤ n
  | .float x | .decimal x => x.Plain
  | _ => True

/-- what the pattern should find for a token -/
def tokenParts (t : PgToken) : List Part :=
  match paramNumber t with
  | some n => [.param n]
  | none => t.text.map .char

/-- the pattern finds the parameter tokens and nothing else -/
def FindsParameters (query : List Char) : Prop := paramParts 0 query = (pgTokens.lex query).flatMap tokenParts

/-- the pattern finds the number of a parameter that is not given -/
def Missing (query : List Char) (parameters : List Value) : Prop :=
  ∃ n, Part.param n ∈ paramParts 0 query ∧ parameters[n - 1]? = none

def tokenText (parameters : List Value) (t : PgToken) : List Char :=
  match valueOf parameters t with
  | some v => sqlLiteral v
  | none => t.text

/-- every parameter token has a value of one literal, and no literal runs together with what stands beside it -/
structure Fits (query : List Char) (parameters : List Value) : Prop where
  finds : FindsParameters query
  plain : ∀ t ∈ pgTokens.lex query, ∀ v, valueOf parameters t = some v → v.Plain
  apart : pgTokens.Apart ((pgTokens.lex query).map (tokenText parameters))

end Render

/-! ## Characters -/

theorem ne_of_isDigit {c d : Char} (hc : c.isDigit = true) (hd : d.isDigit = false) : c ≠ d := by
  rintro rfl
  rw [hc] at hd
  cases hd

theorem isPart_of_isDigit {c : Char} (h : c.isDigit = true) : isPart c = true := by
  rw [isPart, h, Bool.or_true, Bool.true_or]

theorem first_digit {c : Char} (h : c.isDigit = true) : PgState.first c = .integer := by
  have hne : ∀ d : Char, d.isDigit = false → c ≠ d := fun d hd => ne_of_isDigit h hd
  have hspace : c.isWhitespace = false := by
    simp [Char.isWhitespace, hne]
  simp [PgState.first, hspace, hne, h]

/-! ## Literals -/

variable {s : PgState}

theorem run_digits (hs : ∀ c, c.isDigit = true → pgTokens.step s c = some s) (d : Digits)
    (acc rest : List Char) : pgTokens.run ⟨s, acc⟩ (d.text ++ rest) = pgTokens.run ⟨s, acc ++ d.text⟩ rest :=
  Munch.run_stay (fun c hc => hs c (d.digits c hc)) acc rest

theorem run_exponent (hs : pgTokens.step s 'e' = some .exponent) (hnumber : s ∈ [.integer, .fraction])
    (acc : List Char) (e : Option (Bool × Digits)) :
    ∃ t, pgTokens.run ⟨s, acc⟩ (exponentText e) = [t] ∧ t.state ∈ [.integer, .fraction, .exponentDigits] := by
  cases e with
  | none =>
    have hmem := mem_append_left [PgState.exponentDigits] hnumber
    exact ⟨⟨s, acc⟩, rfl, hmem⟩
  | some e =>
    obtain ⟨minus, e⟩ := e
    obtain ⟨d, ds, he⟩ := exists_cons_of_ne_nil e.nonempty
    have hd : d.isDigit = true := e.digits d (he ▸ mem_cons_self)
    have hsign : pgTokens.step .exponent (if minus then '-' else '+') = some .exponentSign := by
      cases minus <;> rfl
    have hfirst : pgTokens.step .exponentSign d = some .exponentDigits := if_pos hd
    have hstay : ∀ c ∈ ds, pgTokens.step .exponentDigits c = some .exponentDigits :=
      fun c hc => if_pos (e.digits c (he ▸ mem_cons_of_mem d hc))
    have hrun := Munch.run_stay hstay (acc ++ [ 'e'] ++ [if minus then '-' else '+'] ++ [d]) []
    rw [append_nil] at hrun
    have hlast : PgState.exponentDigits ∈ [PgState.integer, .fraction, .exponentDigits] := by decide
    refine ⟨⟨.exponentDigits, acc ++ [ 'e'] ++ [if minus then '-' else '+'] ++ [d] ++ ds⟩, ?_, hlast⟩
    simp only [exponentText, Munch.run, hs, hsign, he, hfirst]
    exact hrun

theorem number_lexes (x : Number) :
    ∃ t, pgTokens.lex x.text = [t] ∧ t.state ∈ [.integer, .fraction, .exponentDigits] := by
  obtain ⟨d, ds, hwhole⟩ := exists_cons_of_ne_nil x.whole.nonempty
  have hd : d.isDigit = true := x.whole.digits d (hwhole ▸ mem_cons_self)
  have hstay : ∀ c ∈ ds, pgTokens.step .integer c = some .integer :=
    fun c hc => if_pos (x.whole.digits c (hwhole ▸ mem_cons_of_mem d hc))
  have hfirst : pgTokens.first d = .integer := first_digit hd
  rw [Number.text, hwhole, cons_append, Munch.lex, hfirst, Munch.run_stay hstay]
  cases x.fraction with
  | none => exact run_exponent rfl mem_cons_self _ _
  | some f =>
    have hrun := run_digits (s := .fraction) (fun c hc => if_pos hc) f ([d] ++ ds ++ [ '.']) (exponentText x.exponent)
    change ∃ t, pgTokens.run ⟨.fraction, [d] ++ ds ++ [ '.']⟩ (f.text ++ exponentText x.exponent) = [t] ∧ _
    rw [hrun]
    exact run_exponent rfl (mem_cons_of_mem _ mem_cons_self) _ _

theorem run_word {cs : List Char} (h : ∀ c ∈ cs, isPart c = true) (acc : List Char) :
    pgTokens.run ⟨.word, acc⟩ cs = [⟨.word, acc ++ cs⟩] := by
  have hrun := Munch.run_stay (M := pgTokens) (s := .word) (fun c hc => if_pos (h c hc)) acc []
  rw [append_nil] at hrun
  exact hrun

theorem run_name {name payload : List Char} (hname : name.all isPart = true)
    (digits : ∀ c ∈ payload, c.isDigit = true) (acc : List Char) :
    pgTokens.run ⟨.word, acc⟩ (name ++ payload) = [⟨.word, acc ++ (name ++ payload)⟩] := by
  refine run_word ?_ acc
  rw [forall_mem_append]
  exact ⟨all_eq_true.1 hname, fun c hc => isPart_of_isDigit (digits c hc)⟩

theorem not_constant {c d : Char} (cs : List Char) (h : [c, d].all Char.isUpper = false) :
    c :: d :: cs ∉ constants := by
  have hall : ∀ name ∈ constants, (name.take 2).all Char.isUpper = true := by decide
  intro hmem
  have hupper := hall _ hmem
  rw [take_succ_cons, take_succ_cons, take_zero, h] at hupper
  cases hupper

/-- the name of what is not finite is one word, and none of the constants -/
theorem special_lexes (x : Special) : pgTokens.lex x.text = [⟨.word, x.text⟩] ∧ x.text ∉ constants := by
  cases x with
  | nan => exact ⟨rfl, by decide⟩
  | inf => exact ⟨rfl, by decide⟩
  | infinity => exact ⟨rfl, by decide⟩
  | quiet payload digits =>
    have hupper : [ 'N', 'a'].all Char.isUpper = false := by decide
    refine ⟨?_, not_constant ('N' :: payload) hupper⟩
    exact @run_name [ 'N'] payload rfl digits [ 'N', 'a']
  | signaling payload digits =>
    have hupper : [ 's', 'N'].all Char.isUpper = false := by decide
    refine ⟨?_, not_constant ('a' :: 'N' :: payload) hupper⟩
    exact @run_name [ 'N', 'a', 'N'] payload rfl digits [ 's']

theorem special_not_isLiteral (x : Special) : ¬IsLiteral (pgTokens.lex x.text) := by
  obtain ⟨hlex, hnot⟩ := special_lexes x
  have hword : PgState.word ∉ [PgState.integer, .fraction, .exponentDigits, .textEnd] := by decide
  rw [hlex]
  rintro (hstate | ⟨-, hmem⟩)
  · exact hword hstate
  · exact hnot hmem

/-- the sign of a negative number is a token of its own -/
theorem minus_not_isLiteral (d : Char) (cs : List Char) (hd : d ≠ '-') :
    ¬IsLiteral (pgTokens.lex ('-' :: d :: cs)) := by
  have hstep : pgTokens.step .dash d = none := if_neg hd
  have hlex : pgTokens.lex ('-' :: d :: cs) = ⟨.dash, [ '-']⟩ :: pgTokens.run ⟨pgTokens.first d, [d]⟩ cs := by
    change pgTokens.run ⟨.dash, [ '-']⟩ (d :: cs) = _
    rw [Munch.run, hstep]
  rw [hlex]
  rcases hrest : pgTokens.run ⟨pgTokens.first d, [d]⟩ cs with _ | ⟨u, _ | ⟨v, _ | ⟨w, rest⟩⟩⟩
  · exact absurd hrest (Munch.run_ne_nil _ _)
  · exact id
  · rintro ⟨hword, -⟩
    cases hword
  · exact id

theorem isLiteral_of_number {cs : List Char}
    (h : ∃ t, pgTokens.lex cs = [t] ∧ t.state ∈ [.integer, .fraction, .exponentDigits]) :
    IsLiteral (pgTokens.lex cs) := by
  obtain ⟨t, hlex, hstate⟩ := h
  rw [hlex]
  exact .inl (mem_append_left [PgState.textEnd] hstate)

theorem head_special (x : Special) : ∃ c cs, x.text = c :: cs ∧ c ≠ '-' ∧ c ≠ '$' := by
  cases x with
  | nan => exact ⟨'n', _, rfl, by decide, by decide⟩
  | inf => exact ⟨'i', _, rfl, by decide, by decide⟩
  | infinity => exact ⟨'I', _, rfl, by decide, by decide⟩
  | quiet => exact ⟨'N', _, rfl, by decide, by decide⟩
  | signaling => exact ⟨'s', _, rfl, by decide, by decide⟩

theorem head_number (x : Number) : ∃ c cs, x.text = c :: cs ∧ c ≠ '-' ∧ c ≠ '$' := by
  obtain ⟨d, ds, hwhole⟩ := exists_cons_of_ne_nil x.whole.nonempty
  have hd : d.isDigit = true := x.whole.digits d (hwhole ▸ mem_cons_self)
  refine ⟨d, ds ++ (fractionText x.fraction ++ exponentText x.exponent), ?_, ?_, ?_⟩
  · rw [Number.text, hwhole, cons_append]
  · exact ne_of_isDigit hd (by decide)
  · exact ne_of_isDigit hd (by decide)

theorem numeral_isLiteral_iff (x : Numeral) : IsLiteral (pgTokens.lex x.text) ↔ x.Plain := by
  cases x with
  | finite negative x =>
    cases negative with
    | false => exact iff_of_true (isLiteral_of_number (number_lexes x)) rfl
    | true =>
      obtain ⟨c, cs, htext, hc, -⟩ := head_number x
      refine iff_of_false ?_ Bool.noConfusion
      change ¬IsLiteral (pgTokens.lex ('-' :: x.text))
      rw [htext]
      exact minus_not_isLiteral c cs hc
  | special negative x =>
    refine iff_of_false ?_ id
    cases negative with
    | false => exact special_not_isLiteral x
    | true =>
      obtain ⟨c, cs, htext, hc, -⟩ := head_special x
      change ¬IsLiteral (pgTokens.lex ('-' :: x.text))
      rw [htext]
      exact minus_not_isLiteral c cs hc

theorem run_string (text : List Char) :
    pgTokens.run ⟨.text, [ '\'']⟩ (SqlParams.escape text ++ [ '\'']) = [⟨.textEnd, SqlParams.quoted text⟩] :=
  SqlParams.run_escape rfl rfl (fun _ hc => if_neg hc) [ '\''] text

theorem text_isLiteral (text : List Char) : IsLiteral (pgTokens.lex (SqlParams.quoted text)) := by
  have hmem : PgState.textEnd ∈ [PgState.integer, .fraction, .exponentDigits, .textEnd] := by decide
  have hlex : pgTokens.lex (SqlParams.quoted text) = [⟨.textEnd, SqlParams.quoted text⟩] := run_string text
  rw [hlex]
  exact .inl hmem

theorem escape_moment (m : SqlParams.MomentText) : SqlParams.escape m.text = m.text := by
  have hplain : ∀ cs : List Char, '\'' ∉ cs → SqlParams.escape cs = cs := by
    intro cs hcs
    induction cs with
    | nil => rfl
    | cons c cs ih =>
      rw [mem_cons, not_or] at hcs
      rw [SqlParams.escape, flatMap_cons, if_neg (Ne.symm hcs.1), singleton_append]
      exact congrArg (c :: ·) (ih hcs.2)
  exact hplain m.text m.ok

/-- a type, a blank and a string -/
theorem moment_isLiteral {type : List Char} (m : SqlParams.MomentText) (htype : type ∈ literalTypes)
    (hrun : ∀ cs, pgTokens.lex (type ++ ' ' :: '\'' :: cs) =
      ⟨.word, type⟩ :: ⟨.space, [ ' ']⟩ :: pgTokens.run ⟨.text, [ '\'']⟩ cs) :
    IsLiteral (pgTokens.lex (type ++ ' ' :: '\'' :: (m.text ++ [ '\'']))) := by
  rw [hrun, ← escape_moment, run_string]
  exact ⟨rfl, htype, rfl, rfl⟩

theorem digits_nat (n : ℕ) : ∃ d : Digits, (toString n).toList = d.text := by
  have hrepr : (toString n).toList = Nat.toDigits 10 n := by
    simp
  exact ⟨⟨Nat.toDigits 10 n, Nat.toDigits_ne_nil, fun c hc => Nat.isDigit_of_mem_toDigits (by decide) (by decide) hc⟩,
    hrepr⟩

/-- an integer is written like a number that has no fraction -/
theorem int_text (n : ℤ) :
    ∃ d : Digits, (toString n).toList = signed (decide (n < 0)) (Number.text ⟨d, none, none⟩) := by
  cases n with
  | ofNat n =>
    obtain ⟨d, hd⟩ := digits_nat n
    have hsign : decide (Int.ofNat n < 0) = false := decide_eq_false (not_lt.2 (Int.natCast_nonneg n))
    refine ⟨d, ?_⟩
    rw [hsign, signed, if_neg Bool.false_ne_true, Number.text, fractionText, exponentText, append_nil,
      append_nil]
    exact hd
  | negSucc n =>
    obtain ⟨d, hd⟩ := digits_nat (n + 1)
    have hsign : decide (Int.negSucc n < 0) = true := decide_eq_true (Int.negSucc_lt_zero n)
    have htext : toString (Int.negSucc n) = "-" ++ toString (n + 1) := rfl
    refine ⟨d, ?_⟩
    rw [hsign, signed, if_pos rfl, Number.text, fractionText, exponentText, append_nil, append_nil, htext,
      String.toList_append, hd]
    rfl

theorem constant_isLiteral {cs : List Char} (hlex : pgTokens.lex cs = [⟨.word, cs⟩]) (h : cs ∈ constants) :
    IsLiteral (pgTokens.lex cs) := by
  rw [hlex]
  exact .inr ⟨rfl, h⟩

/-- **Literals.** A value is written as one literal if and only if it is no negative number and no number that is not
finite. -/
theorem isLiteral_iff (v : Value) : IsLiteral (pgTokens.lex (sqlLiteral v)) ↔ v.Plain := by
  cases v with
  | none => exact iff_of_true (constant_isLiteral (by decide) (by decide)) trivial
  | bool b =>
    cases b with
    | false => exact iff_of_true (constant_isLiteral (by decide) (by decide)) trivial
    | true => exact iff_of_true (constant_isLiteral (by decide) (by decide)) trivial
  | int n =>
    obtain ⟨d, hd⟩ := int_text n
    have hplain := numeral_isLiteral_iff (.finite (decide (n < 0)) ⟨d, none, none⟩)
    rw [Numeral.text, Numeral.Plain, ← hd, decide_eq_false_iff_not, not_lt] at hplain
    exact hplain
  | float x => exact numeral_isLiteral_iff x
  | decimal x => exact numeral_isLiteral_iff x
  | datetime m => exact iff_of_true (@moment_isLiteral "TIMESTAMP".toList m (by decide) fun _ => rfl) trivial
  | date m => exact iff_of_true (@moment_isLiteral "DATE".toList m (by decide) fun _ => rfl) trivial
  | time m => exact iff_of_true (@moment_isLiteral "TIME".toList m (by decide) fun _ => rfl) trivial
  | other text => exact iff_of_true (text_isLiteral text) trivial

theorem head_signed {negative : Bool} {text : List Char} (h : ∃ c cs, text = c :: cs ∧ c ≠ '-' ∧ c ≠ '$') :
    ∃ c cs, signed negative text = c :: cs ∧ c ≠ '$' := by
  cases negative with
  | false =>
    obtain ⟨c, cs, htext, -, hc⟩ := h
    exact ⟨c, cs, htext, hc⟩
  | true => exact ⟨'-', text, rfl, by decide⟩

/-- no literal begins like a placeholder -/
theorem head_literal (v : Value) : ∃ c cs, sqlLiteral v = c :: cs ∧ c ≠ '$' := by
  have hnumeral : ∀ x : Numeral, ∃ c cs, x.text = c :: cs ∧ c ≠ '$' := by
    rintro (⟨negative, x⟩ | ⟨negative, x⟩)
    · exact head_signed (head_number x)
    · exact head_signed (head_special x)
  cases v with
  | none => exact ⟨'N', _, rfl, by decide⟩
  | bool b =>
    cases b with
    | false => exact ⟨'F', _, rfl, by decide⟩
    | true => exact ⟨'T', _, rfl, by decide⟩
  | int n =>
    obtain ⟨d, hd⟩ := int_text n
    have hhead := @head_signed (decide (n < 0)) _ (head_number ⟨d, none, none⟩)
    rw [← hd] at hhead
    exact hhead
  | float x => exact hnumeral x
  | decimal x => exact hnumeral x
  | datetime m => exact ⟨'T', _, rfl, by decide⟩
  | date m => exact ⟨'D', _, rfl, by decide⟩
  | time m => exact ⟨'T', _, rfl, by decide⟩
  | other text => exact ⟨'\'', _, rfl, by decide⟩

/-! ## Parameter tokens -/

/-- what the text of a token is that may be, or become, a parameter -/
def Shape (t : PgToken) : Prop :=
  (t.state = .dollar → t.text = [ '$']) ∧
    (t.state = .param → ∃ d ds, t.text = '$' :: d :: ds ∧ d ≠ '0' ∧ ∀ c ∈ d :: ds, c.isDigit = true)

theorem ite_ne {α : Type} {p : Prop} [Decidable p] {a b x : α} (ha : p → a ≠ x) (hb : ¬p → b ≠ x) :
    (if p then a else b) ≠ x := by
  by_cases h : p
  · rw [if_pos h]
    exact ha h
  · rw [if_neg h]
    exact hb h

theorem first_ne_param (c : Char) : PgState.first c ≠ .param := by
  iterate 12 refine ite_ne (fun _ => nofun) fun _ => ?_
  nofun

theorem first_ne_dollar {c : Char} (hc : c ≠ '$') : PgState.first c ≠ .dollar := by
  iterate 5 refine ite_ne (fun _ => nofun) fun _ => ?_
  refine ite_ne (fun h => absurd h hc) fun _ => ?_
  iterate 6 refine ite_ne (fun _ => nofun) fun _ => ?_
  nofun

theorem step_ne_dollar (s : PgState) (c : Char) : s.step c ≠ some .dollar := by
  cases s <;> grind [PgState.step]

theorem step_param {c : Char} (h : s.step c = some .param) :
    c.isDigit = true ∧ (s = .dollar ∧ c ≠ '0' ∨ s = .param) := by
  cases s <;> grind [PgState.step]

theorem lex_shape (query : List Char) : ∀ t ∈ pgTokens.lex query, Shape t := by
  apply Munch.lex_inv
  · intro c
    refine ⟨fun h => ?_, fun h => absurd h (first_ne_param c)⟩
    by_contra hc
    exact first_ne_dollar (fun heq => hc (congrArg ([·]) heq)) h
  · intro t c s ht hs
    refine ⟨fun h => absurd (hs.trans (congrArg some h)) (step_ne_dollar t.state c), fun h => ?_⟩
    obtain ⟨hdigit, ⟨hstate, hzero⟩ | hstate⟩ := step_param (hs.trans (congrArg some h))
    · refine ⟨c, [], ?_, hzero, forall_mem_singleton.2 hdigit⟩
      rw [ht.1 hstate, singleton_append]
    · obtain ⟨d, ds, htext, hzero, hdigits⟩ := ht.2 hstate
      refine ⟨d, ds ++ [c], ?_, hzero, ?_⟩
      · rw [htext, cons_append, cons_append]
      · rw [← cons_append, forall_mem_append]
        exact ⟨hdigits, forall_mem_singleton.2 hdigit⟩

section Pattern

variable [PyClasses]

theorem isWord_of_isDigit {c : Char} (h : c.isDigit = true) : isWord c = true := by
  have hpart : SqlParams.identPart c = true := by
    rw [SqlParams.identPart, Char.isAlphanum, h, Bool.or_true, Bool.true_or]
  rw [PyClasses.isWord_ascii c (SqlParams.ascii_of_identPart hpart)]
  exact hpart

/-- where a parameter token ends, the word that its digits are ends -/
theorem isWord_of_stop {c : Char} (h : PgState.step .param c = none) : isWord c = false := by
  have hdigit : c.isDigit = false := by
    by_contra hc
    rw [Bool.not_eq_false] at hc
    rw [PgState.step, if_pos hc] at h
    cases h
  have hstart : isStart c = false := by
    by_contra hc
    rw [Bool.not_eq_false] at hc
    rw [PgState.step, if_neg (Bool.eq_false_iff.1 hdigit), if_pos hc] at h
    cases h
  rw [isStart, Bool.or_eq_false_iff, Bool.or_eq_false_iff] at hstart
  obtain ⟨⟨halpha, hunderscore⟩, hascii⟩ := hstart
  rw [PyClasses.isWord_ascii c (not_le.1 (of_decide_eq_false hascii)), Char.isAlphanum, halpha, hdigit, hunderscore]
  rfl

omit [PyClasses] in
/-- the characters of a match that are still to be taken -/
theorem paramParts_skip [PyText] (ds rest : List Char) : paramParts ds.length (ds ++ rest) = paramParts 0 rest := by
  induction ds with
  | nil => rfl
  | cons d ds ih =>
    exact ih

/-- the pattern finds a parameter token -/
theorem paramParts_param {d : Char} {ds rest : List Char} (hzero : d ≠ '0') (hdigits : ∀ c ∈ d :: ds, c.isDigit = true)
    (hrest : ∀ c ∈ rest.head?, PgState.step .param c = none) :
    paramParts 0 ('$' :: d :: ds ++ rest) = .param (digitsValue (d :: ds)) :: paramParts 0 rest := by
  have hword : (d :: ds ++ rest).takeWhile isWord = d :: ds := by
    have hstop : rest.takeWhile isWord = [] := by
      cases rest with
      | nil => rfl
      | cons c cs =>
        have hc : isWord c = false := isWord_of_stop (hrest c rfl)
        rw [takeWhile_cons, hc, if_neg Bool.false_ne_true]
    rw [takeWhile_append_of_pos fun c hc => isWord_of_isDigit (hdigits c hc), hstop, append_nil]
  have hall : (d ≠ '0' && d.isDigit && ds.all Char.isDigit) = true := by
    rw [decide_eq_true hzero, hdigits d mem_cons_self, Bool.true_and, Bool.true_and, all_eq_true]
    exact fun c hc => hdigits c (mem_cons_of_mem d hc)
  have hat : positionalAt ('$' :: (d :: ds ++ rest)) = some ((d :: ds).length, digitsValue (d :: ds)) := by
    rw [positionalAt]
    simp only [hword, hall, if_true]
  rw [cons_append, paramParts, hat]
  change Part.param _ :: paramParts (d :: ds).length (d :: ds ++ rest) = _
  rw [paramParts_skip]

/-- a match begins with a dollar sign -/
theorem positionalAt_head {c : Char} {cs : List Char} {m : ℕ × ℕ} (h : positionalAt (c :: cs) = some m) : c = '$' := by
  by_contra hc
  rw [positionalAt] at h
  · cases h
  · rintro cs' heq
    exact hc (List.cons.inj heq).1

/-! ## Rendering -/

variable (parameters : List Value)

omit [PyClasses] in
theorem replaceParams_chars (cs : List Char) (ps : List Part) :
    replaceParams parameters (cs.map .char ++ ps) = (replaceParams parameters ps).map (cs ++ ·) := by
  induction cs with
  | nil => exact Option.map_id'.symm
  | cons c cs ih =>
    rw [map_cons, cons_append, replaceParams, ih, Option.map_map]
    rfl

omit [PyClasses] in
theorem replaceParams_eq_none_iff (ps : List Part) :
    replaceParams parameters ps = none ↔ ∃ n, Part.param n ∈ ps ∧ parameters[n - 1]? = none := by
  induction ps with
  | nil => simp [replaceParams]
  | cons p ps ih =>
    cases p with
    | char c => simp [replaceParams, ih]
    | param n =>
      rw [replaceParams]
      cases hn : parameters[n - 1]? with
      | none => exact iff_of_true rfl ⟨n, mem_cons_self, hn⟩
      | some v =>
        rw [Option.bind_some, Option.map_eq_none_iff, ih]
        constructor
        · rintro ⟨m, hm, hnone⟩
          exact ⟨m, mem_cons_of_mem _ hm, hnone⟩
        · rintro ⟨m, hm, hnone⟩
          rcases mem_cons.1 hm with heq | hm
          · rw [Part.param.inj heq, hn] at hnone
            cases hnone
          · exact ⟨m, hm, hnone⟩

omit [PyClasses] in
theorem replaceParams_tokens (ts : List PgToken) {text : List Char}
    (h : replaceParams parameters (ts.flatMap tokenParts) = some text) : text = ts.flatMap (tokenText parameters) := by
  induction ts generalizing text with
  | nil => exact (Option.some.inj h).symm
  | cons t ts ih =>
    rw [flatMap_cons] at h ⊢
    cases hnumber : paramNumber t with
    | none =>
      rw [tokenParts, hnumber, replaceParams_chars] at h
      obtain ⟨rest, hrest, rfl⟩ := Option.map_eq_some_iff.1 h
      rw [tokenText, valueOf, hnumber, ih hrest]
      rfl
    | some n =>
      rw [tokenParts, hnumber, singleton_append, replaceParams] at h
      obtain ⟨v, hv, h⟩ := Option.bind_eq_some_iff.1 h
      obtain ⟨rest, hrest, rfl⟩ := Option.map_eq_some_iff.1 h
      rw [tokenText, valueOf, hnumber, Option.bind_some, hv, ih hrest]

/-- where a text that is no parameter stays as it is, the pattern has found nothing in it -/
theorem paramParts_chars (cs rest more : List Char)
    (h : replaceParams parameters (paramParts 0 (cs ++ rest)) = some (cs ++ more)) :
    paramParts 0 (cs ++ rest) = cs.map .char ++ paramParts 0 rest ∧
      replaceParams parameters (paramParts 0 rest) = some more := by
  induction cs with
  | nil => exact ⟨rfl, h⟩
  | cons c cs ih =>
    rw [cons_append, paramParts] at h ⊢
    cases hat : positionalAt (c :: (cs ++ rest)) with
    | none =>
      rw [hat] at h
      obtain ⟨text, htext, hcons⟩ := Option.map_eq_some_iff.1 h
      obtain rfl := tail_eq_of_cons_eq hcons
      obtain ⟨hparts, hmore⟩ := ih htext
      exact ⟨congrArg (Part.char c :: ·) hparts, hmore⟩
    | some m =>
      -- the literal in place of the match would begin with a dollar sign
      rw [hat] at h
      obtain ⟨v, -, h⟩ := Option.bind_eq_some_iff.1 h
      obtain ⟨text, -, hcons⟩ := Option.map_eq_some_iff.1 h
      obtain ⟨d, ds, hliteral, hd⟩ := head_literal v
      rw [hliteral, cons_append] at hcons
      exact absurd ((List.cons.inj hcons).1.trans (positionalAt_head hat)) hd

omit [PyClasses] in
/-- what follows a token does not go on with it -/
theorem head_stop {t : PgToken} {ts : List PgToken} (h : (t :: ts).IsChain pgTokens.Stops) :
    ∀ c ∈ (ts.flatMap Token.text).head?, pgTokens.step t.state c = none := by
  cases ts with
  | nil =>
    intro c hc
    cases hc
  | cons u ts =>
    obtain ⟨d, ds, htext, hstop⟩ := (isChain_cons_cons.1 h).1
    intro c hc
    rw [flatMap_cons, htext, cons_append, head?_cons, Option.mem_def, Option.some.injEq] at hc
    exact hc ▸ hstop

/-- where only parameter tokens are replaced, the pattern has found them and nothing else -/
theorem finds_of_text (ts : List PgToken) (hchain : ts.IsChain pgTokens.Stops) (hshape : ∀ t ∈ ts, Shape t)
    (h : replaceParams parameters (paramParts 0 (ts.flatMap Token.text)) = some (ts.flatMap (tokenText parameters))) :
    paramParts 0 (ts.flatMap Token.text) = ts.flatMap tokenParts := by
  induction ts with
  | nil => rfl
  | cons t ts ih =>
    have hrest := fun h => ih hchain.tail (fun u hu => hshape u (mem_cons_of_mem t hu)) h
    rw [flatMap_cons, flatMap_cons] at h
    rw [flatMap_cons, flatMap_cons]
    by_cases hstate : t.state = .param
    · obtain ⟨d, ds, htext, hzero, hdigits⟩ := (hshape t mem_cons_self).2 hstate
      have hnumber : paramNumber t = some (digitsValue (d :: ds)) := by
        rw [paramNumber, if_pos hstate, htext, tail_cons]
      have hstop := head_stop hchain
      rw [hstate] at hstop
      rw [htext, paramParts_param hzero hdigits hstop] at h ⊢
      rw [tokenParts, hnumber, singleton_append]
      obtain ⟨v, hv, h⟩ := Option.bind_eq_some_iff.1 h
      obtain ⟨text, htext, hcons⟩ := Option.map_eq_some_iff.1 h
      rw [tokenText, valueOf, hnumber, Option.bind_some, hv] at hcons
      rw [append_cancel_left hcons] at htext
      exact congrArg (Part.param _ :: ·) (hrest htext)
    · have hnumber : paramNumber t = none := if_neg hstate
      rw [tokenText, valueOf, hnumber] at h
      obtain ⟨hparts, hmore⟩ := paramParts_chars parameters t.text _ _ h
      rw [hparts, tokenParts, hnumber]
      exact congrArg (t.text.map .char ++ ·) (hrest hmore)

omit [PyClasses] in
theorem lex_tokenText (query : List Char) : ∀ t ∈ pgTokens.lex query,
    pgTokens.lex (tokenText parameters t) = rendered parameters t := by
  intro t ht
  rw [tokenText, rendered]
  cases valueOf parameters t with
  | none => exact Munch.lex_token query t ht
  | some v => rfl

omit [PyClasses] in
theorem flatMap_lex_tokenText (query : List Char) :
    ((pgTokens.lex query).map (tokenText parameters)).flatMap pgTokens.lex =
      (pgTokens.lex query).flatMap (rendered parameters) := by
  rw [flatMap_map]
  exact flatMap_congr (lex_tokenText parameters query)

omit [PyClasses] in
theorem rendered_text (query : List Char) :
    ((pgTokens.lex query).flatMap (rendered parameters)).flatMap Token.text =
      (pgTokens.lex query).flatMap (tokenText parameters) := by
  rw [flatMap_assoc]
  refine flatMap_congr fun t ht => ?_
  rw [← lex_tokenText parameters query t ht, Munch.lex_text]

theorem keepsStructure_of_fits {query : List Char} {parameters : List Value} (hne : parameters ≠ [])
    (h : Fits query parameters) : KeepsStructure query parameters := by
  intro text htext
  rw [renderQueryWithParameters, if_neg (mt List.isEmpty_iff.1 hne), h.finds] at htext
  refine ⟨?_, fun t ht v hv => (isLiteral_iff v).2 (h.plain t ht v hv)⟩
  rw [replaceParams_tokens parameters _ htext, ← flatMap_lex_tokenText, ← (Munch.lex_flatten_iff _).2 h.apart,
    List.flatMap_def]

theorem fits_of_text {query : List Char} {parameters : List Value} (hne : parameters ≠ []) {text : List Char}
    (htext : renderQueryWithParameters query parameters = some text) (h : KeepsStructure query parameters) :
    Fits query parameters := by
  obtain ⟨htokens, hliterals⟩ := h text htext
  have heq : text = (pgTokens.lex query).flatMap (tokenText parameters) := by
    rw [← rendered_text, ← htokens, Munch.lex_text]
  rw [renderQueryWithParameters, if_neg (mt List.isEmpty_iff.1 hne), heq] at htext
  refine ⟨?_, fun t ht v hv => (isLiteral_iff v).1 (hliterals t ht v hv), ?_⟩
  · have hquery := Munch.lex_text (M := pgTokens) query
    have hfinds := finds_of_text parameters _ (Munch.lex_stops query) (lex_shape query)
    rw [hquery] at hfinds
    exact hfinds htext
  · rw [← Munch.lex_flatten_iff, flatMap_lex_tokenText, ← htokens, heq, List.flatMap_def]

/-- **Rendering.** Only the parameter tokens of a query change, each to one literal, if and only if there are no
parameters, or one that the pattern finds is missing, or the pattern finds the parameter tokens and nothing else, their
values are not negative and finite, and no literal runs together with the token beside it. -/
theorem keepsStructure_iff (query : List Char) (parameters : List Value) :
    KeepsStructure query parameters ↔ parameters = [] ∨ Missing query parameters ∨ Fits query parameters := by
  by_cases hne : parameters = []
  · -- the query is left as it is
    refine iff_of_true ?_ (.inl hne)
    have hvalue : ∀ t, valueOf parameters t = none := by
      intro t
      rw [valueOf, hne]
      cases paramNumber t <;> rfl
    intro text htext
    rw [renderQueryWithParameters, hne, isEmpty_nil, if_pos rfl] at htext
    cases htext
    refine ⟨?_, fun t _ v hv => ?_⟩
    · have hrendered : ∀ t, rendered parameters t = [t] := fun t => by rw [rendered, hvalue t]
      exact ((flatMap_congr fun t _ => hrendered t).trans (flatMap_singleton' _)).symm
    · rw [hvalue t] at hv
      cases hv
  · rw [or_iff_right hne]
    have hrender : renderQueryWithParameters query parameters = replaceParams parameters (paramParts 0 query) :=
      if_neg (mt List.isEmpty_iff.1 hne)
    cases htext : renderQueryWithParameters query parameters with
    | none =>
      have hmissing : Missing query parameters := by
        rw [Missing, ← replaceParams_eq_none_iff, ← hrender]
        exact htext
      refine iff_of_true (fun text h => ?_) (.inl hmissing)
      rw [htext] at h
      cases h
    | some text =>
      have hmissing : ¬Missing query parameters := by
        rw [Missing, ← replaceParams_eq_none_iff, ← hrender, htext]
        exact Option.some_ne_none text
      rw [or_iff_right hmissing]
      exact ⟨fits_of_text hne htext, keepsStructure_of_fits hne⟩

end Pattern

/-! ## A query -/

section Query

open scoped Ascii

/-- the value ends the string that its placeholder stands in, and the rest of the query is a comment -/
theorem in_string :
    renderQueryWithParameters "SELECT '$1'".toList [.other "; DROP TABLE t --".toList] =
        some "SELECT ''; DROP TABLE t --''".toList ∧
      ¬KeepsStructure "SELECT '$1'".toList [.other "; DROP TABLE t --".toList] := by
  have hrender : renderQueryWithParameters "SELECT '$1'".toList [.other "; DROP TABLE t --".toList] =
      some "SELECT ''; DROP TABLE t --''".toList := by rfl
  refine ⟨hrender, fun h => ?_⟩
  have htokens := congrArg List.length (h _ hrender).1
  revert htokens
  decide

end Query

end Langbridge.Runtime.OdbcParams
