/-
Portable SQL (`_normalize_portable_sql` of `federation/planner/parser.py`): two regular expressions that rewrite a text
before it is parsed. This module has the expressions, the places of a text that they are meant for, and what their
matches are made of; `PortableText` has the results.
-/
import Langbridge.Core.Scanner

namespace Langbridge.Federation.PortableSql

open Core List PyText

/-- `re.IGNORECASE`, which compares characters by `fold`: what folds to a letter or an underscore is of `\w`; and what
`str.lower` makes, in which blanks and ASCII characters other than small letters are those of the text -/
class PyRegex extends PyClasses where
  fold : Char → Char
  fold_ascii : ∀ c : Char, c.toNat < 128 → fold c = c.toLower
  isSpace_blank : isSpace ' ' = true
  isWord_fold : ∀ c : Char, (fold c).isLower = true ∨ fold c = '_' → isWord c = true
  mem_lower : ∀ (s : String) (c : Char), isSpace c = true ∨ c.toNat < 128 ∧ c.isLower = false →
    c ∈ (lower s).toList → c ∈ s.toList

/-! ## Regular expressions -/

section Expressions

variable [PyRegex]

open PyRegex

/-- `\b` before a letter -/
def atWord (before : Option Char) : Bool := !(before.map isWord).getD false

def intervalUnits : List (List Char) :=
  ["day", "days", "week", "weeks", "month", "months", "quarter", "quarters", "year", "years", "hour", "hours", "minute",
    "minutes", "second", "seconds"].map String.toList

/-- `\s+(DAY|DAYS|...)\b` -/
def unitPart : Scanner Char (List Char) := do
  let _ ← many1 isSpace
  let unit ← many isWord
  if unit.map fold ∈ intervalUnits then return unit else failure

/-- `([^']+)'\s+(DAY|DAYS|...)\b` -/
def literalPart : Scanner Char (List Char × List Char) := do
  let body ← many1 (· ≠ '\'')
  single '\''
  let unit ← unitPart
  return (body, unit)

/-- `_INTERVAL_LITERAL_WITH_UNIT_RE`, whose groups are the literal and its unit -/
def intervalLiteral : Scanner Char (List Char × List Char) := do
  let _ ← keyword fold "interval".toList
  let _ ← many1 isSpace
  single '\''
  literalPart

/-- `[A-Za-z_]` -/
def letter (c : Char) : Bool := (fold c).isLower || c = '_'

/-- `[A-Za-z0-9_]` -/
def nameChar (c : Char) : Bool := letter c || c.isDigit

/-- `[A-Za-z_][A-Za-z0-9_]*(?:\.[A-Za-z_][A-Za-z0-9_]*)*` -/
def dottedName (w : List Char) : Bool :=
  (w.splitOn '.').all fun part => (part.head?.map letter).getD false && part.all nameChar

def nowCall : Scanner Char (List Char) := do
  let name ← keyword fold "now".toList
  single '('
  single ')'
  return name ++ ['(', ')']

/-- `CURRENT_DATE|CURRENT_TIMESTAMP|NOW\(\)|[A-Za-z_]...`; the first two are names, and a name is taken to its end,
since no character of one may follow -/
def expression : Scanner Char (List Char) := fun cs =>
  match nowCall cs with
  | some found => some found
  | none =>
    let name := cs.takeWhile fun c => nameChar c || c = '.'
    if dottedName name then some (name, cs.dropWhile fun c => nameChar c || c = '.') else none

/-- `TIMESTAMP_TRUNC|DATE_TRUNC` -/
def truncName : Scanner Char (List Char) := fun cs =>
  (keyword fold "timestamp_trunc".toList cs).or (keyword fold "date_trunc".toList cs)

/-- `_TRUNC_FUNCTION_RE`, whose groups are the two arguments -/
def truncCall : Scanner Char (List Char × List Char) := do
  let _ ← truncName
  let _ ← many isSpace
  single '('
  let _ ← many isSpace
  let expr ← expression
  let _ ← many isSpace
  single ','
  let _ ← many isSpace
  let unit ← many1 letter
  let _ ← many isSpace
  single ')'
  return (expr, unit)

/-- `INTERVAL '{literal} {unit}'` -/
def replaceInterval (groups : List Char × List Char) : List Char :=
  "INTERVAL '".toList ++ groups.1 ++ ' ' :: groups.2 ++ ['\'']

/-- `_replace_trunc`; the groups are never empty -/
def replaceTrunc (groups : List Char × List Char) : List Char :=
  let exprSql := strip (String.ofList groups.1)
  let unitSql := lower (strip (String.ofList groups.2))
  "DATE_TRUNC('".toList ++ unitSql.toList ++ "', ".toList ++ exprSql.toList ++ [')']

def normalizePortableSql (sql : List Char) : List Char :=
  (truncCall.pattern atWord).sub replaceTrunc ((intervalLiteral.pattern atWord).sub replaceInterval sql)

/-! ## Code, literals, identifiers and comments -/

/-- what a character stands in: code, behind a dash or a slash of it, a literal or quoted identifier that a character
ends, a comment to the end of the line, a block comment, behind a star of it -/
inductive Place where
  | code
  | dash
  | slash
  | quoted (close : Char)
  | line
  | block
  | star
  deriving DecidableEq

def Place.isCode : Place → Bool
  | .code | .dash | .slash => true
  | _ => false

variable (quotes : Char → Option Char)

/-- the place behind a character of code; `quotes` gives the ends of the quoted identifiers -/
def codeStep (p : Place) (c : Char) : Place :=
  if isWord c || isSpace c then .code
  else if c = '\'' then .quoted '\''
  else if c = '-' then if p = .dash then .line else .dash
  else if c = '/' then .slash
  else if c = '*' then if p = .slash then .block else .code
  else
    match quotes c with
    | some close => .quoted close
    | none => .code

/-- the place behind a character; a quotation mark that is doubled begins another literal -/
def placeStep (p : Place) (c : Char) : Place :=
  match p with
  | .quoted close => if c = close then .code else p
  | .line => if c = '\n' then .code else .line
  | .block => if c = '*' then .star else .block
  | .star => if c = '/' then .code else if c = '*' then .star else .block
  | _ => codeStep quotes p c

theorem placeStep_quoted (close c : Char) :
    placeStep quotes (.quoted close) c = if c = close then .code else .quoted close := rfl

/-- a text with the matches replaced that stand in code and satisfy a condition -/
def replaceInCode {δ : Type} (P : Pattern Char δ) (ok : δ → Bool) (replacement : δ → List Char) (s : List Char) :
    List Char :=
  (P.pieces (placeStep quotes) .code none 0 s).flatMap
    (Piece.replaceIf (fun place groups => place.isCode && ok groups) replacement)

variable (isUnit : List Char → Bool)

/-- the text with only its unquoted `INTERVAL` literals and unit-second truncation calls rewritten -/
def rewrittenInCode (sql : List Char) : List Char :=
  replaceInCode quotes (truncCall.pattern atWord) (fun groups => isUnit groups.2) replaceTrunc
    (replaceInCode quotes (intervalLiteral.pattern atWord) (fun _ => true) replaceInterval sql)

/-- only unquoted `INTERVAL` literals and unit-second truncation calls change, and a second time nothing does -/
def Portable (sql : List Char) : Prop :=
  normalizePortableSql sql = rewrittenInCode quotes isUnit sql ∧
    normalizePortableSql (normalizePortableSql sql) = normalizePortableSql sql

end Expressions

/-! ## What replaces matches -/

/-- what a literal that is rewritten begins with, up to the quotation mark -/
def intervalStart : List Char := "INTERVAL ".toList

/-- what a call that is rewritten begins with, up to the quotation mark -/
def truncStart : List Char := "DATE_TRUNC(".toList

theorem replaceInterval_eq (d : List Char × List Char) :
    replaceInterval d = intervalStart ++ '\'' :: (d.1 ++ ' ' :: d.2 ++ ['\'']) := by
  have hstart : "INTERVAL '".toList = intervalStart ++ ['\''] := by decide
  calc replaceInterval d = "INTERVAL '".toList ++ (d.1 ++ ' ' :: d.2 ++ ['\'']) :=
        (congrArg (· ++ ['\'']) (append_assoc _ _ _)).trans (append_assoc _ _ _)
    _ = (intervalStart ++ ['\'']) ++ (d.1 ++ ' ' :: d.2 ++ ['\'']) := congrArg (· ++ _) hstart
    _ = _ := append_assoc _ _ _

/-! ## What matches are made of -/

section Matches

variable [PyRegex]

open PyRegex

/-- ASCII words are compared as `str.lower` compares them -/
theorem fold_word {w : List Char} (hw : w.all (fun c => c.toNat < 128) = true) : w.map fold = w.map Char.toLower :=
  map_congr_left fun c hc => fold_ascii c (of_decide_eq_true (all_eq_true.1 hw c hc))

/-- a word of small letters and underscores, in any case -/
theorem isWord_of_fold {k w : List Char} (hw : w.all (fun c => c.isLower || c = '_') = true) (h : k.map fold = w) :
    ∀ c ∈ k, isWord c = true := by
  intro c hc
  refine isWord_fold c ?_
  have hmem := all_eq_true.1 hw _ (h ▸ mem_map_of_mem hc)
  rwa [Bool.or_eq_true, decide_eq_true_eq] at hmem

variable {u : List Char}

theorem isWord_unit (h : u.map fold ∈ intervalUnits) : ∀ c ∈ u, isWord c = true := by
  have hall : ∀ w ∈ intervalUnits, w.all (fun c => c.isLower || c = '_') = true := by decide
  exact isWord_of_fold (hall _ h) rfl

variable {c : Char}

theorem isSpace_of_isWord (h : isWord c = true) : isSpace c = false := by
  by_contra hne
  rw [PyClasses.isWord_space c (Bool.not_eq_false _ ▸ hne)] at h
  cases h

variable {cs rest : List Char}

theorem unitPart_eq_some :
    unitPart cs = some (u, rest) ↔ ∃ ws, cs = ws ++ (u ++ rest) ∧ ws ≠ [] ∧ (∀ c ∈ ws, isSpace c = true) ∧
      u.map fold ∈ intervalUnits ∧ Stops isWord rest := by
  rw [unitPart, bind_eq_some]
  constructor
  · rintro ⟨ws, cs₁, hws, h⟩
    obtain ⟨hne, rfl, hspace, -⟩ := many1_eq_some.1 hws
    obtain ⟨unit, cs₂, hunit, h'⟩ := bind_eq_some.1 h
    obtain ⟨rfl, -, hstop⟩ := many_eq_some.1 hunit
    split_ifs at h' with hmem
    · cases pure_eq_some.1 h'
      exact ⟨ws, rfl, hne, hspace, hmem, hstop⟩
    · exact absurd h' failure_ne_some
  · rintro ⟨ws, rfl, hne, hspace, hmem, hstop⟩
    have hword := isWord_unit hmem
    refine ⟨ws, u ++ rest, many1_eq_some.2 ⟨hne, rfl, hspace, ?_⟩, bind_eq_some.2
      ⟨u, rest, many_eq_some.2 ⟨rfl, hword, hstop⟩, ?_⟩⟩
    · intro c hc
      refine isSpace_of_isWord (hword c ?_)
      cases u with
      | nil => exact absurd (show [] ∈ intervalUnits from hmem) (by decide)
      | cons d u =>
        cases hc
        exact mem_cons_self
    · rw [if_pos hmem, pure_eq_some]

theorem literalPart_eq_some {cs body u rest : List Char} : literalPart cs = some ((body, u), rest) ↔
    ∃ t, cs = body ++ '\'' :: t ∧ body ≠ [] ∧ '\'' ∉ body ∧ unitPart t = some (u, rest) := by
  rw [literalPart, bind_eq_some]
  constructor
  · rintro ⟨body', cs₁, hbody, h⟩
    obtain ⟨hne, rfl, hquote, -⟩ := many1_eq_some.1 hbody
    obtain ⟨_, cs₂, hsingle, h'⟩ := bind_eq_some.1 h
    obtain rfl := single_eq_some.1 hsingle
    obtain ⟨unit, cs₃, hunit, h''⟩ := bind_eq_some.1 h'
    cases pure_eq_some.1 h''
    exact ⟨cs₂, rfl, hne, fun hmem => of_decide_eq_true (hquote _ hmem) rfl, hunit⟩
  · rintro ⟨t, rfl, hne, hquote, hunit⟩
    refine ⟨body, '\'' :: t, many1_eq_some.2 ⟨hne, rfl, ?_, ?_⟩, bind_eq_some.2 ⟨(), t, single_eq_some.2 rfl,
      bind_eq_some.2 ⟨u, rest, hunit, pure_eq_some.2 rfl⟩⟩⟩
    · intro c hc
      exact decide_eq_true fun heq => hquote (heq ▸ hc)
    · rintro c hc
      cases hc
      rfl

/-- `INTERVAL\s+` -/
def IsHead (y : List Char) : Prop :=
  ∃ k ws, y = k ++ ws ∧ k.map fold = "interval".toList ∧ ws ≠ [] ∧ ∀ c ∈ ws, isSpace c = true

theorem isSpace_open : isSpace '(' = false := PyStrip.isSpace_graph '(' (by decide) (by decide)

theorem isSpace_close : isSpace ')' = false := PyStrip.isSpace_graph ')' (by decide) (by decide)

theorem isSpace_comma : isSpace ',' = false := PyStrip.isSpace_graph ',' (by decide) (by decide)

theorem isSpace_quote : isSpace '\'' = false := PyStrip.isSpace_graph '\'' (by decide) (by decide)

theorem isWord_quote : isWord '\'' = false := PyClasses.isWord_ascii '\'' (by decide)

theorem intervalLiteral_eq_some {d : List Char × List Char} :
    intervalLiteral cs = some (d, rest) ↔ ∃ y t, cs = y ++ '\'' :: t ∧ IsHead y ∧ literalPart t = some (d, rest) := by
  rw [intervalLiteral, bind_eq_some]
  constructor
  · rintro ⟨k, cs₁, hk, h⟩
    obtain ⟨rfl, hfold⟩ := keyword_eq_some.1 hk
    obtain ⟨ws, cs₂, hws, h'⟩ := bind_eq_some.1 h
    obtain ⟨hne, rfl, hspace, -⟩ := many1_eq_some.1 hws
    obtain ⟨_, cs₃, hsingle, h''⟩ := bind_eq_some.1 h'
    obtain rfl := single_eq_some.1 hsingle
    exact ⟨k ++ ws, cs₃, (append_assoc _ _ _).symm, ⟨k, ws, rfl, hfold, hne, hspace⟩, h''⟩
  · rintro ⟨_, t, rfl, ⟨k, ws, rfl, hk, hne, hspace⟩, ht⟩
    refine ⟨k, ws ++ '\'' :: t, keyword_eq_some.2 ⟨append_assoc _ _ _, hk⟩, bind_eq_some.2 ⟨ws, '\'' :: t,
      many1_eq_some.2 ⟨hne, rfl, hspace, stops_cons isSpace_quote⟩,
      bind_eq_some.2 ⟨(), t, single_eq_some.2 rfl, ht⟩⟩⟩

/-! ### Truncation calls -/

/-- the first argument of a call -/
def IsExpression (e : List Char) : Prop :=
  (∃ name, e = name ++ ['(', ')'] ∧ name.map fold = "now".toList) ∨
    dottedName e = true ∧ ∀ c ∈ e, (nameChar c || c = '.') = true

/-- the text of a call and its arguments -/
structure TruncText (m e u : List Char) : Prop where
  parts : ∃ n w₁ w₂ w₃ w₄ w₅, m = n ++ (w₁ ++ '(' :: (w₂ ++ (e ++ (w₃ ++ ',' :: (w₄ ++ (u ++ (w₅ ++ [')']))))))) ∧
    n.map fold ∈ ["timestamp_trunc".toList, "date_trunc".toList] ∧
    ∀ c ∈ w₁ ++ (w₂ ++ (w₃ ++ (w₄ ++ w₅))), isSpace c = true
  expr : IsExpression e
  unit : u ≠ []
  letters : ∀ c ∈ u, letter c = true

theorem nameChar_ascii (h : c.toNat < 128) : nameChar c = (c.toLower.isLower || c = '_' || c.isDigit) := by
  rw [nameChar, letter, fold_ascii c h]

variable {e : List Char}

theorem nowCall_eq_some : nowCall cs = some (e, rest) ↔
    cs = e ++ rest ∧ ∃ name, e = name ++ ['(', ')'] ∧ name.map fold = "now".toList := by
  rw [nowCall, bind_eq_some]
  constructor
  · rintro ⟨name, cs₁, hname, h⟩
    obtain ⟨rfl, hfold⟩ := keyword_eq_some.1 hname
    obtain ⟨_, cs₂, hopen, h'⟩ := bind_eq_some.1 h
    obtain rfl := single_eq_some.1 hopen
    obtain ⟨_, cs₃, hclose, h''⟩ := bind_eq_some.1 h'
    obtain rfl := single_eq_some.1 hclose
    cases pure_eq_some.1 h''
    exact ⟨(append_assoc name ['(', ')'] _).symm, name, rfl, hfold⟩
  · rintro ⟨rfl, name, rfl, hfold⟩
    exact ⟨name, '(' :: ')' :: rest, keyword_eq_some.2 ⟨append_assoc name ['(', ')'] rest, hfold⟩,
      bind_eq_some.2 ⟨(), ')' :: rest, single_eq_some.2 rfl,
        bind_eq_some.2 ⟨(), rest, single_eq_some.2 rfl, pure_eq_some.2 rfl⟩⟩⟩

theorem expression_parts (h : expression cs = some (e, rest)) : cs = e ++ rest ∧ IsExpression e := by
  rw [expression] at h
  cases hnow : nowCall cs with
  | some found =>
    rw [hnow] at h
    cases h
    obtain ⟨rfl, hname⟩ := nowCall_eq_some.1 hnow
    exact ⟨rfl, .inl hname⟩
  | none =>
    rw [hnow] at h
    dsimp only at h
    split_ifs at h with hdotted
    cases h
    exact ⟨takeWhile_append_dropWhile.symm, .inr ⟨hdotted, fun c hc => all_eq_true.1 all_takeWhile c hc⟩⟩

/-- an argument is taken whole where no character of a name and no parenthesis follows -/
theorem expression_append (he : IsExpression e)
    (hstop : Stops (fun c => nameChar c || c = '.') rest) (hopen : rest.head? ≠ some '(') :
    expression (e ++ rest) = some (e, rest) := by
  rcases he with hnow | ⟨hdotted, hall⟩
  · rw [expression, nowCall_eq_some.2 ⟨rfl, hnow⟩]
  · have hparen : '(' ∉ e := by
      intro hmem
      have hchar := hall _ hmem
      rw [nameChar_ascii (by decide)] at hchar
      revert hchar
      decide
    have hnone : nowCall (e ++ rest) = none := by
      by_contra hne
      obtain ⟨⟨e', rest'⟩, hsome⟩ := Option.ne_none_iff_exists'.1 hne
      obtain ⟨happend, name, rfl, hfold⟩ := nowCall_eq_some.1 hsome
      rw [append_assoc, append_eq_append_iff] at happend
      rcases happend with ⟨more, rfl, hrest⟩ | ⟨more, rfl, hrest⟩
      · cases more with
        | nil =>
          exact hopen (hrest ▸ rfl)
        | cons c more =>
          -- the name would go on behind the argument
          have hc := hstop c (hrest ▸ rfl)
          have hletter : "now".toList.all Char.isLower = true := by decide
          have hlower := all_eq_true.1 hletter (fold c) (hfold ▸ mem_map_of_mem (mem_append_right _ mem_cons_self))
          simp [nameChar, letter, hlower] at hc
      · cases more with
        | nil =>
          rw [nil_append] at hrest
          exact hopen (hrest ▸ rfl)
        | cons c more =>
          obtain rfl : '(' = c := (List.cons.inj hrest).1
          exact hparen (mem_append_right _ mem_cons_self)
    have hsplit := takeWhile_eq hall hstop
    rw [expression, hnone]
    rw [hsplit.1, hsplit.2, if_pos hdotted]

variable {n : List Char}

theorem truncName_eq_some : truncName cs = some (n, rest) ↔
    cs = n ++ rest ∧ n.map fold ∈ ["timestamp_trunc".toList, "date_trunc".toList] := by
  rw [truncName, Option.or_eq_some_iff, mem_cons, mem_singleton]
  constructor
  · rintro (h | ⟨-, h⟩)
    · obtain ⟨rfl, hfold⟩ := keyword_eq_some.1 h
      exact ⟨rfl, .inl hfold⟩
    · obtain ⟨rfl, hfold⟩ := keyword_eq_some.1 h
      exact ⟨rfl, .inr hfold⟩
  · rintro ⟨rfl, hfold | hfold⟩
    · exact .inl (keyword_eq_some.2 ⟨rfl, hfold⟩)
    · refine .inr ⟨?_, keyword_eq_some.2 ⟨rfl, hfold⟩⟩
      by_contra hne
      obtain ⟨⟨k, rest'⟩, hsome⟩ := Option.ne_none_iff_exists'.1 hne
      obtain ⟨happend, hk⟩ := keyword_eq_some.1 hsome
      have hhead := congrArg (fun l => (l.map fold).head?) happend
      simp only [map_append, hfold, hk] at hhead
      exact absurd (show some 'd' = some 't' from hhead) (by decide)

theorem isSpace_letter (h : letter c = true) : isSpace c = false := by
  rw [letter, Bool.or_eq_true, decide_eq_true_eq] at h
  rcases h with h | rfl
  · exact isSpace_of_isWord (isWord_fold c (.inl h))
  · exact PyStrip.isSpace_graph '_' (by decide) (by decide)

theorem isSpace_nameChar (h : nameChar c = true) : isSpace c = false := by
  rw [nameChar, Bool.or_eq_true] at h
  rcases h with h | h
  · exact isSpace_letter h
  · have hgraph := alphanum_bounds (c := c) (by rw [Char.isAlphanum, h, Bool.or_true])
    exact PyStrip.isSpace_graph c (by omega) (by omega)

/-- blanks before a text that does not begin with a character of a class without blanks -/
theorem stops_spaces {p : Char → Bool} (hp : ∀ c, p c = true → isSpace c = false) {w cs : List Char}
    (hw : ∀ c ∈ w, isSpace c = true) (hcs : Stops p cs) : Stops p (w ++ cs) := by
  cases w with
  | nil => exact hcs
  | cons c w =>
    refine stops_cons ?_
    by_contra hne
    have hspace := hw c mem_cons_self
    rw [hp c (Bool.not_eq_false _ ▸ hne)] at hspace
    cases hspace

/-- arguments begin with a letter or an underscore -/
theorem IsExpression.head (h : IsExpression e) : ∃ c cs, e = c :: cs ∧ letter c = true := by
  rcases h with ⟨name, rfl, hfold⟩ | ⟨hdotted, -⟩
  · cases name with
    | nil => cases hfold
    | cons c name =>
      have hc : fold c = 'n' := (List.cons.inj hfold).1
      refine ⟨c, name ++ ['(', ')'], rfl, ?_⟩
      rw [letter, hc]
      rfl
  · cases e with
    | nil => cases hdotted
    | cons c cs =>
      refine ⟨c, cs, rfl, ?_⟩
      obtain ⟨part, others, hsplit⟩ := exists_cons_of_ne_nil (splitOnP_ne_nil (· == '.') cs)
      rw [dottedName, List.splitOn, splitOnP_cons_eq_if_modifyHead, hsplit, modifyHead_cons] at hdotted
      split_ifs at hdotted
      · cases hdotted
      · rw [all_cons, Bool.and_eq_true, Bool.and_eq_true] at hdotted
        exact hdotted.1.1

theorem truncCall_eq_some : truncCall cs = some ((e, u), rest) ↔ ∃ m, cs = m ++ rest ∧ TruncText m e u := by
  rw [truncCall, bind_eq_some]
  constructor
  · rintro ⟨n, cs₁, hn, h₁⟩
    obtain ⟨rfl, hfold⟩ := truncName_eq_some.1 hn
    obtain ⟨w₁, cs₂, hw₁, h₂⟩ := bind_eq_some.1 h₁
    obtain ⟨rfl, hs₁, -⟩ := many_eq_some.1 hw₁
    obtain ⟨_, cs₃, hopen, h₃⟩ := bind_eq_some.1 h₂
    obtain rfl := single_eq_some.1 hopen
    obtain ⟨w₂, cs₄, hw₂, h₄⟩ := bind_eq_some.1 h₃
    obtain ⟨rfl, hs₂, -⟩ := many_eq_some.1 hw₂
    obtain ⟨e', cs₅, he, h₅⟩ := bind_eq_some.1 h₄
    obtain ⟨rfl, hexpr⟩ := expression_parts he
    obtain ⟨w₃, cs₆, hw₃, h₆⟩ := bind_eq_some.1 h₅
    obtain ⟨rfl, hs₃, -⟩ := many_eq_some.1 hw₃
    obtain ⟨_, cs₇, hcomma, h₇⟩ := bind_eq_some.1 h₆
    obtain rfl := single_eq_some.1 hcomma
    obtain ⟨w₄, cs₈, hw₄, h₈⟩ := bind_eq_some.1 h₇
    obtain ⟨rfl, hs₄, -⟩ := many_eq_some.1 hw₄
    obtain ⟨u', cs₉, hu, h₉⟩ := bind_eq_some.1 h₈
    obtain ⟨hune, rfl, hletters, -⟩ := many1_eq_some.1 hu
    obtain ⟨w₅, cs₁₀, hw₅, h₁₀⟩ := bind_eq_some.1 h₉
    obtain ⟨rfl, hs₅, -⟩ := many_eq_some.1 hw₅
    obtain ⟨_, cs₁₁, hclose, h₁₁⟩ := bind_eq_some.1 h₁₀
    obtain rfl := single_eq_some.1 hclose
    cases pure_eq_some.1 h₁₁
    refine ⟨_, ?_, ⟨n, w₁, w₂, w₃, w₄, w₅, rfl, hfold, ?_⟩, hexpr, hune, hletters⟩
    · simp only [append_assoc, cons_append, nil_append]
    · simp only [forall_mem_append]
      exact ⟨hs₁, hs₂, hs₃, hs₄, hs₅⟩
  · rintro ⟨_, rfl, ⟨n, w₁, w₂, w₃, w₄, w₅, rfl, hfold, hspace⟩, hexpr, hune, hletters⟩
    simp only [forall_mem_append] at hspace
    obtain ⟨hs₁, hs₂, hs₃, hs₄, hs₅⟩ := hspace
    simp only [append_assoc, cons_append, nil_append]
    refine ⟨n, _, truncName_eq_some.2 ⟨rfl, hfold⟩, bind_eq_some.2 ⟨w₁, _, many_eq_some.2 ⟨rfl, hs₁, ?_⟩,
      bind_eq_some.2 ⟨(), _, single_eq_some.2 rfl, bind_eq_some.2 ⟨w₂, _, many_eq_some.2 ⟨rfl, hs₂, ?_⟩,
      bind_eq_some.2 ⟨e, _, expression_append hexpr ?_ ?_, bind_eq_some.2 ⟨w₃, _, many_eq_some.2 ⟨rfl, hs₃, ?_⟩,
      bind_eq_some.2 ⟨(), _, single_eq_some.2 rfl, bind_eq_some.2 ⟨w₄, _, many_eq_some.2 ⟨rfl, hs₄, ?_⟩,
      bind_eq_some.2 ⟨u, _, many1_eq_some.2 ⟨hune, rfl, hletters, ?_⟩,
      bind_eq_some.2 ⟨w₅, _, many_eq_some.2 ⟨rfl, hs₅, ?_⟩,
      bind_eq_some.2 ⟨(), rest, single_eq_some.2 rfl, pure_eq_some.2 rfl⟩⟩⟩⟩⟩⟩⟩⟩⟩⟩⟩
    · exact stops_cons isSpace_open
    · obtain ⟨c, cs, rfl, hc⟩ := hexpr.head
      exact stops_cons (isSpace_letter hc)
    · refine stops_spaces (fun c hc => ?_) hs₃ (stops_cons (by rw [nameChar_ascii (by decide)]; decide))
      rw [Bool.or_eq_true, decide_eq_true_eq] at hc
      rcases hc with hc | rfl
      · exact isSpace_nameChar hc
      · exact PyStrip.isSpace_graph '.' (by decide) (by decide)
    · have hstop : Stops (· = '(') (w₃ ++ ',' :: (w₄ ++ (u ++ (w₅ ++ ')' :: rest)))) :=
        stops_spaces (fun c hc => by rw [of_decide_eq_true hc]; exact isSpace_open) hs₃ (stops_cons rfl)
      exact fun heq => Bool.false_ne_true (hstop '(' heq).symm
    · exact stops_cons isSpace_comma
    · obtain ⟨c, cs, rfl⟩ := exists_cons_of_ne_nil hune
      exact stops_cons (isSpace_letter (hletters c mem_cons_self))
    · exact stops_spaces (fun c hc => isSpace_letter hc) hs₅
        (stops_cons (by rw [letter, fold_ascii _ (by decide)]; decide))
    · exact stops_cons isSpace_close

/-! ### The text of a call -/

/-- quotation marks and parentheses -/
def special (c : Char) : Bool := c = '\'' || c = '(' || c = ')'

theorem special_ascii (h : special c = true) : c.toNat < 128 ∧ isWord c = false ∧ isSpace c = false := by
  simp only [special, Bool.or_eq_true, decide_eq_true_eq] at h
  rcases h with (rfl | rfl) | rfl
  · exact ⟨by decide, isWord_quote, isSpace_quote⟩
  · exact ⟨by decide, PyClasses.isWord_ascii '(' (by decide), isSpace_open⟩
  · exact ⟨by decide, PyClasses.isWord_ascii ')' (by decide), isSpace_close⟩

theorem not_special_of_isWord (h : isWord c = true) : special c = false := by
  by_contra hne
  rw [(special_ascii (Bool.not_eq_false _ ▸ hne)).2.1] at h
  cases h

theorem not_special_of_isSpace (h : isSpace c = true) : special c = false := by
  by_contra hne
  rw [(special_ascii (Bool.not_eq_false _ ▸ hne)).2.2] at h
  cases h

/-- names of calls -/
def IsTruncName (n : List Char) : Prop := n.map fold ∈ ["timestamp_trunc".toList, "date_trunc".toList]

theorem IsTruncName.isWord (h : IsTruncName n) : ∀ c ∈ n, isWord c = true := by
  have hall : ∀ w ∈ ["timestamp_trunc".toList, "date_trunc".toList], w.all (fun c => c.isLower || c = '_') = true := by
    decide
  exact isWord_of_fold (hall _ h) rfl

theorem IsTruncName.length (h : IsTruncName n) : 10 ≤ n.length := by
  have hall : ∀ w ∈ ["timestamp_trunc".toList, "date_trunc".toList], 10 ≤ w.length := by decide
  have hn := hall _ h
  rwa [length_map] at hn

theorem IsTruncName.not_unit (h : IsTruncName n) : n.map fold ∉ intervalUnits := by
  have hall : ∀ w ∈ ["timestamp_trunc".toList, "date_trunc".toList], w ∉ intervalUnits := by decide
  exact hall _ h

theorem isWord_letter (h : letter c = true) : isWord c = true := by
  rw [letter, Bool.or_eq_true, decide_eq_true_eq] at h
  rcases h with h | rfl
  · exact isWord_fold c (.inl h)
  · exact PyClasses.isWord_ascii '_' (by decide)

theorem not_quote_of_nameChar (h : nameChar c = true) : special c = false := by
  by_contra hne
  obtain ⟨hascii, hword, -⟩ := special_ascii (Bool.not_eq_false _ ▸ hne)
  rw [nameChar, Bool.or_eq_true] at h
  rcases h with h | h
  · rw [isWord_letter h] at hword
    cases hword
  · rw [PyClasses.isWord_ascii c hascii, Char.isAlphanum, h, Bool.or_true, Bool.true_or] at hword
    cases hword

theorem IsExpression.quote_notMem (h : IsExpression e) : '\'' ∉ e := by
  intro hmem
  rcases h with ⟨name, rfl, hfold⟩ | ⟨-, hall⟩
  · rcases mem_append.1 hmem with hmem | hmem
    · have hword := isWord_of_fold (w := "now".toList) (by decide) hfold _ hmem
      rw [isWord_quote] at hword
      cases hword
    · exact absurd hmem (by decide)
  · have hchar := hall _ hmem
    rw [nameChar_ascii (by decide)] at hchar
    exact absurd hchar (by decide)

/-- a call: its name, blanks, and what stands in the parentheses, without quotation marks -/
theorem TruncText.shape {m e u : List Char} (h : TruncText m e u) :
    ∃ n w inner, m = n ++ (w ++ '(' :: (inner ++ [')'])) ∧ IsTruncName n ∧ (∀ c ∈ w, isSpace c = true) ∧ '\'' ∉ inner ∧ 3 ≤ inner.length := by
  obtain ⟨n, w₁, w₂, w₃, w₄, w₅, rfl, hn, hspace⟩ := h.parts
  simp only [forall_mem_append] at hspace
  obtain ⟨hs₁, hs₂, hs₃, hs₄, hs₅⟩ := hspace
  have hblank : ∀ {w : List Char}, (∀ c ∈ w, isSpace c = true) → '\'' ∉ w := by
    intro w hw hmem
    have hquote := hw _ hmem
    rw [isSpace_quote] at hquote
    cases hquote
  have hu : '\'' ∉ u := by
    intro hmem
    have hword := isWord_letter (h.letters _ hmem)
    rw [isWord_quote] at hword
    cases hword
  obtain ⟨c, cs, he, -⟩ := h.expr.head
  obtain ⟨d, ds, hd⟩ := exists_cons_of_ne_nil h.unit
  refine ⟨n, w₁, w₂ ++ (e ++ (w₃ ++ ',' :: (w₄ ++ (u ++ w₅)))), ?_, hn, hs₁, ?_, ?_⟩
  · simp only [append_assoc, cons_append]
  · simp only [mem_append, mem_cons, not_or]
    exact ⟨hblank hs₂, h.expr.quote_notMem, hblank hs₃, by decide, hblank hs₄, hu, hblank hs₅⟩
  · simp only [length_append, length_cons, he, hd]
    omega

/-- the match of a call that begins a text -/
theorem trunc_eq_some {before : Option Char} {n : ℕ} {d : List Char × List Char} :
    truncCall.pattern atWord before cs = some (n, d) ↔
      atWord before = true ∧ ∃ m, m <+: cs ∧ TruncText m d.1 d.2 ∧ n = m.length := by
  rw [pattern_eq_some]
  refine and_congr_right fun _ => ?_
  constructor
  · rintro ⟨rest, hcall, rfl⟩
    obtain ⟨m, rfl, hm⟩ := truncCall_eq_some.1 hcall
    exact ⟨m, prefix_append m rest, hm, by rw [length_append, Nat.add_sub_cancel]⟩
  · rintro ⟨m, ⟨rest, rfl⟩, hm, rfl⟩
    exact ⟨rest, truncCall_eq_some.2 ⟨m, rfl, hm⟩, by rw [length_append, Nat.add_sub_cancel]⟩

/-- the unit of a call that is rewritten -/
def unitText (u : List Char) : List Char := (lower (strip (String.ofList u))).toList

/-- what stands behind the unit of a call that is rewritten -/
def argumentText (e : List Char) : List Char := ", ".toList ++ (strip (String.ofList e)).toList ++ [')']

theorem replaceTrunc_eq (d : List Char × List Char) :
    replaceTrunc d = truncStart ++ '\'' :: (unitText d.2 ++ '\'' :: argumentText d.1) := by
  have hstart : "DATE_TRUNC('".toList = truncStart ++ ['\''] := by decide
  have hcomma : "', ".toList = '\'' :: ", ".toList := by decide
  calc replaceTrunc d = "DATE_TRUNC('".toList ++ unitText d.2 ++ "', ".toList ++
        (strip (String.ofList d.1)).toList ++ [')'] := rfl
    _ = truncStart ++ ['\''] ++ unitText d.2 ++ '\'' :: ", ".toList ++
        (strip (String.ofList d.1)).toList ++ [')'] := by rw [hstart, hcomma]
    _ = _ := by
        rw [argumentText]
        simp only [append_assoc, cons_append, nil_append]

end Matches

end Langbridge.Federation.PortableSql
