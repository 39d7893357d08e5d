/-
The last guard before every database (`connectors/base/connector.py`). `ensure_select_statement` looks at the first word
of a text whose comments a regular expression has taken out; `SqlConnector.execute` hands the text itself to the source.

How the source reads a text is a parameter (`SourceLexer`).
-/
import Langbridge.Core.Text
import Langbridge.Core.Substitution

namespace Langbridge.Connectors.SelectGuard

open Core List PyText

/-- texts of small ASCII letters and blanks without a `k`, which is the small letter of the Kelvin sign too -/
def keywordText (t : List Char) : Bool := t.all fun c => c.toNat < 128 && !c.isUpper && c ≠ 'k'

/-- keywords in any case; an `i` at the end may come of a dotted capital -/
class PyKeywords extends PyClasses where
  lower_eq : ∀ s t : String, keywordText t.toList = true → lower s = t → s.toList.map Char.toLower = t.toList
  lower_prefix : ∀ s t : String, keywordText t.toList = true → t.toList.getLast? ≠ some 'i' →
    t.toList <+: (lower s).toList → t.toList <+: s.toList.map Char.toLower

/-! ## The guard -/

/-- the length of the rest of a block comment -/
def closing : List Char → Option ℕ
  | '*' :: '/' :: _ => some 2
  | _ :: cs => (closing cs).map (1 + ·)
  | [] => none

/-- `--.*?$|/\*.*?\*/` -/
def comment : List Char → Option ℕ
  | '-' :: '-' :: cs => some (2 + (cs.takeWhile (· ≠ '\n')).length)
  | '/' :: '*' :: cs => (closing cs).map (2 + ·)
  | _ => none

def sqlCommentRe : Pattern Char Unit := fun _ cs => (comment cs).map (·, ())

section Guard

variable [PyText]

/-- `SQL_COMMAND_RE.match(text).group(1)` -/
def sqlCommandRe (cs : List Char) : Option String :=
  match (cs.dropWhile isSpace).takeWhile isWord with
  | [] => none
  | word => some (String.ofList word)

def ensureSelectStatement (sql : String) : Except String Unit :=
  let stripped := strip (String.ofList (sqlCommentRe.sub (fun _ => []) sql.toList))
  if stripped = "" then throw "Empty SQL statement."
  else
    match sqlCommandRe stripped.toList with
    | none => throw "Unable to determine SQL command."
    | some command =>
      if lower command ≠ "select" ∧ ¬"with ".toList <+: (lower stripped).toList then
        throw ("Only SELECT queries are permitted " ++ sql ++ ".")
      else return ()

/-- the text that `SqlConnector.execute` hands to `_execute_select` -/
def executedText (sql : String) : Except String String := do
  ensureSelectStatement sql
  return sql

end Guard

/-! ## The source -/

/-- how a source reads a text: its blanks, the characters that begin a word and that a word takes in, and the length of
the comment, or of the string or quoted identifier, that begins a text -/
structure SourceLexer where
  isSpace : Char → Bool
  isStart : Char → Bool
  isWord : Char → Bool
  comment : List Char → Option ℕ
  quoted : List Char → Option ℕ

/-- a word in small letters, a string or quoted identifier, or any other character -/
inductive Token where
  | word (w : List Char)
  | quoted
  | symbol (c : Char)
  deriving DecidableEq

/-- a text behind the blanks and comments that it begins with, once the next `skip` characters are dropped -/
def opening (isSpace : Char → Bool) (comment : List Char → Option ℕ) : ℕ → List Char → List Char
  | _, [] => []
  | skip + 1, _ :: cs => opening isSpace comment skip cs
  | 0, c :: cs =>
    if isSpace c then opening isSpace comment 0 cs
    else
      match comment (c :: cs) with
      | some n => opening isSpace comment (n - 1) cs
      | none => c :: cs

namespace SourceLexer

variable (L : SourceLexer)

/-- the word that a text begins with -/
def headWord : List Char → List Char
  | [] => []
  | c :: cs => if L.isStart c then c :: cs.takeWhile L.isWord else []

/-- the tokens of a text, once the next `skip` characters are dropped -/
def lex : ℕ → List Char → List Token
  | _, [] => []
  | skip + 1, _ :: cs => lex skip cs
  | 0, c :: cs =>
    if L.isSpace c then lex 0 cs
    else
      match L.comment (c :: cs) with
      | some n => lex (n - 1) cs
      | none =>
        if L.isStart c then
          .word ((c :: cs.takeWhile L.isWord).map Char.toLower) :: lex (cs.takeWhile L.isWord).length cs
        else
          match L.quoted (c :: cs) with
          | some n => .quoted :: lex (n - 1) cs
          | none => .symbol c :: lex 0 cs

/-- the statements of a text, which end at semicolons -/
def statements (cs : List Char) : List (List Token) :=
  ((L.lex 0 cs).splitOnP (· = .symbol ';')).filter (· ≠ [])

end SourceLexer

/-- tokens and what stands in parentheses -/
inductive Tree where
  | leaf (t : Token)
  | group (ts : List Tree)

/-- close the parentheses that are open at the end -/
def closeAll : List (List Tree) → List Tree → List Tree
  | [], ts => ts
  | outer :: stack, ts => closeAll stack (outer ++ [.group ts])

/-- the trees of a statement, inside the parentheses that are open -/
def nestIn : List (List Tree) → List Tree → List Token → List Tree
  | stack, ts, [] => closeAll stack ts
  | stack, ts, .symbol '(' :: rest => nestIn (ts :: stack) [] rest
  | outer :: stack, ts, .symbol ')' :: rest => nestIn stack (outer ++ [.group ts]) rest
  | stack, ts, t :: rest => nestIn stack (ts ++ [.leaf t]) rest

def nest (ts : List Token) : List Tree := nestIn [] [] ts

def queryCommands : List (List Char) := ["select".toList, "with".toList, "values".toList, "table".toList]

def writingCommands : List (List Char) :=
  ["insert".toList, "update".toList, "delete".toList, "merge".toList, "create".toList, "alter".toList, "drop".toList,
    "truncate".toList]

/-- the command of a statement is a query, parentheses apart -/
def isQuery (ts : List Token) : Bool :=
  match ts.dropWhile (· = .symbol '(') with
  | .word w :: _ => w ∈ queryCommands
  | _ => false

/-- a writing command, before a name or another keyword -/
def verb : List Tree → Bool
  | .leaf (.word w) :: .leaf (.word _) :: _ => w ∈ writingCommands
  | .leaf (.word w) :: .leaf .quoted :: _ => w ∈ writingCommands
  | _ => false

/-- the statement behind the last body of a `WITH` list -/
def afterBodies : List Tree → List Tree
  | .group _ :: .leaf (.symbol ',') :: ts => afterBodies ts
  | .group _ :: .leaf (.word ['a', 's']) :: ts => afterBodies ts
  | .group _ :: ts => ts
  | _ :: ts => afterBodies ts
  | [] => []

/-- the statement behind a `WITH` list writes -/
def withWrites : List Tree → Bool
  | .leaf (.word ['w', 'i', 't', 'h']) :: ts => verb (afterBodies ts)
  | _ => false

def selectsInto : List Tree → Bool
  | [] => false
  | .leaf (.word ['s', 'e', 'l', 'e', 'c', 't']) :: ts =>
    ts.any fun | .leaf (.word ['i', 'n', 't', 'o']) => true | _ => false
  | _ :: ts => selectsInto ts

mutual
/-- what stands in parentheses writes: it is a writing statement, or a part of it writes -/
def Tree.writes : Tree → Bool
  | .leaf _ => false
  | .group ts => verb ts || withWrites ts || selectsInto ts || anyWrites ts

def anyWrites : List Tree → Bool
  | [] => false
  | t :: ts => t.writes || anyWrites ts
end

/-- a statement or a part of it inserts, updates, deletes, merges, creates, alters, drops or truncates -/
def writes (ts : List Token) : Bool :=
  verb (ts.map .leaf) || withWrites (nest ts) || selectsInto (nest ts) || anyWrites (nest ts)

def WritesNothing (L : SourceLexer) (text : String) : Prop :=
  ∃ ts, L.statements text.toList = [ts] ∧ isQuery ts = true ∧ writes ts = false

/-! ## What the guard sees -/

variable {c : Char} {cs : List Char}

/-- comments begin with a dash or a slash -/
theorem comment_head (h : comment (c :: cs) ≠ none) : c = '-' ∨ c = '/' := by
  rw [comment.eq_def] at h
  split at h
  · rename_i heq
    exact .inl (List.cons.inj heq).1
  · rename_i heq
    exact .inr (List.cons.inj heq).1
  · exact absurd rfl h

/-- the text without its comments -/
def bare (before : Option Char) (skip : ℕ) (cs : List Char) : List Char :=
  (sqlCommentRe.pieces (fun _ _ => ()) () before skip cs).flatMap (Piece.replace fun _ => [])

theorem bare_comment (before : Option Char) {n : ℕ} (h : comment (c :: cs) = some n) :
    bare before 0 (c :: cs) = bare (some c) (n - 1) cs := by
  rw [bare, Pattern.pieces_found (by rw [sqlCommentRe, h]; rfl)]
  rfl

theorem bare_other (before : Option Char) (h : comment (c :: cs) = none) :
    bare before 0 (c :: cs) = c :: bare (some c) 0 cs := by
  rw [bare, Pattern.pieces_same (by rw [sqlCommentRe, h]; rfl)]
  rfl

theorem bare_before (b b' : Option Char) (skip : ℕ) (cs : List Char) : bare b skip cs = bare b' skip cs := by
  cases cs with
  | nil => rfl
  | cons c cs =>
    cases skip with
    | succ n => rfl
    | zero => rfl

/-- what stands first behind the comments -/
theorem head_bare (before : Option Char) (skip : ℕ) (cs : List Char) :
    (bare before skip cs).head? = (opening (fun _ => false) comment skip cs).head? := by
  fun_induction opening (fun _ => false) comment skip cs generalizing before with
  | case1 => rfl
  | case2 skip c cs ih => exact ih (some c)
  | case3 c cs hc => cases hc
  | case4 c cs _ n hn ih =>
    rw [bare_comment _ hn]
    exact ih (some c)
  | case5 c cs _ hn => rw [bare_other _ hn, head?_cons, head?_cons]

/-- the text that a list begins with, behind blanks and comments -/
theorem opening_cons {isSpace : Char → Bool} {com : List Char → Option ℕ} {skip : ℕ} {s cs : List Char}
    (h : opening isSpace com skip s = c :: cs) : isSpace c = false ∧ com (c :: cs) = none := by
  fun_induction opening isSpace com skip s with
  | case1 => cases h
  | case2 skip d ds ih => exact ih h
  | case3 d ds hd ih => exact ih h
  | case4 d ds hd n hn ih => exact ih h
  | case5 d ds hd hn =>
    cases h
    exact ⟨Bool.not_eq_true _ ▸ hd, hn⟩

/-- the guard's commands in small letters -/
def commands : List (List Char) := ["select".toList, "with".toList]

/-! ## The source's tokens -/

section Source

variable {L : SourceLexer}

theorem lex_opening (skip : ℕ) (cs : List Char) :
    L.lex skip cs = L.lex 0 (opening L.isSpace L.comment skip cs) := by
  fun_induction opening L.isSpace L.comment skip cs with
  | case1 => rfl
  | case2 skip c cs ih => exact ih
  | case3 c cs hc ih =>
    rw [SourceLexer.lex, if_pos hc]
    exact ih
  | case4 c cs hc n hn ih =>
    rw [SourceLexer.lex, if_neg hc, hn]
    exact ih
  | case5 c cs hc hn => rfl

theorem statement_head {ts : List Token} (h : L.statements cs = [ts]) {t : Token}
    {rest : List Token} (hlex : L.lex 0 cs = t :: rest) (ht : t ≠ .symbol ';') : ∃ more, ts = t :: more := by
  obtain ⟨first, others, hsplit⟩ := exists_cons_of_ne_nil (splitOnP_ne_nil (· = Token.symbol ';') rest)
  rw [SourceLexer.statements, hlex, splitOnP_cons_eq_if_modifyHead, if_neg (by simpa using ht), hsplit,
    modifyHead_cons, filter_cons_of_pos (by simp), List.cons.injEq] at h
  exact ⟨first, h.1.symm⟩

theorem headWord_prefix (cs : List Char) : L.headWord cs <+: cs := by
  cases cs with
  | nil => exact prefix_refl _
  | cons c cs =>
    rw [SourceLexer.headWord]
    split_ifs
    · exact cons_prefix_cons.2 ⟨rfl, takeWhile_prefix _⟩
    · exact nil_prefix

theorem mem_queryCommands {w : List Char} (h : w ∈ commands) : w ∈ queryCommands := by
  revert w
  decide

/-- a query's first word is no writing command -/
theorem verb_of_isQuery {ts : List Token} (h : isQuery ts = true) : verb (ts.map .leaf) = false := by
  cases ts with
  | nil => cases h
  | cons t ts =>
    cases t with
    | quoted => cases h
    | symbol c => rfl
    | word w =>
      have hw : w ∈ queryCommands := by simpa [isQuery] using h
      have hnot : ∀ w ∈ queryCommands, decide (w ∈ writingCommands) = false := by decide
      rw [map_cons, verb.eq_def]
      split
      · rename_i heq
        rw [← Token.word.inj (Tree.leaf.inj (List.cons.inj heq).1)]
        exact hnot w hw
      · rename_i heq
        rw [← Token.word.inj (Tree.leaf.inj (List.cons.inj heq).1)]
        exact hnot w hw
      · rfl

end Source

section Words

variable [PyKeywords]

theorem isWord_dash : isWord '-' = false := PyClasses.isWord_ascii '-' (by decide)

theorem isWord_slash : isWord '/' = false := PyClasses.isWord_ascii '/' (by decide)

theorem comment_of_word (hc : isWord c = true) (cs : List Char) : comment (c :: cs) = none := by
  by_contra h
  rcases comment_head h with rfl | rfl
  · rw [isWord_dash] at hc
    cases hc
  · rw [isWord_slash] at hc
    cases hc

theorem comment_of_space (hc : isSpace c = true) (cs : List Char) : comment (c :: cs) = none := by
  by_contra h
  rcases comment_head h with rfl | rfl
  · rw [PyStrip.isSpace_graph '-' (by decide) (by decide)] at hc
    cases hc
  · rw [PyStrip.isSpace_graph '/' (by decide) (by decide)] at hc
    cases hc

/-- words hold no comments -/
theorem bare_word (before : Option Char) (w cs : List Char) (hw : ∀ c ∈ w, isWord c = true) :
    ∃ b, bare before 0 (w ++ cs) = w ++ bare b 0 cs := by
  induction w generalizing before with
  | nil => exact ⟨before, rfl⟩
  | cons c w ih =>
    obtain ⟨b, hb⟩ := ih (some c) fun d hd => hw d (mem_cons_of_mem c hd)
    refine ⟨b, ?_⟩
    rw [cons_append, bare_other _ (comment_of_word (hw c mem_cons_self) _), hb, cons_append]

/-- what the guard sees first is what stands behind the blanks and comments -/
theorem bare_opening (before : Option Char) (skip : ℕ) (cs : List Char) :
    (bare before skip cs).dropWhile isSpace =
      (bare none 0 (opening isSpace comment skip cs)).dropWhile isSpace := by
  fun_induction opening isSpace comment skip cs generalizing before with
  | case1 => rfl
  | case2 skip c cs ih => exact ih (some c)
  | case3 c cs hc ih =>
    rw [bare_other _ (comment_of_space hc cs), dropWhile_cons_of_pos hc]
    exact ih (some c)
  | case4 c cs hc n hn ih =>
    rw [bare_comment _ hn]
    exact ih (some c)
  | case5 c cs hc hn => rw [bare_before before none]

/-- blanks at the end are no part of the first word -/
theorem takeWhile_trim (l : List Char) : (trim isSpace l).takeWhile isWord =
    (l.dropWhile isSpace).takeWhile isWord := by
  obtain ⟨after, hafter, hspace⟩ := dropWhile_parts isSpace (l.dropWhile isSpace).reverse
  have hl : l.dropWhile isSpace = trim isSpace l ++ after.reverse := by
    rw [trim, ← reverse_append, ← hafter, reverse_reverse]
  rw [hl, takeWhile_append]
  split_ifs with hlen
  · have hnone : after.reverse.takeWhile isWord = [] := by
      cases hrev : after.reverse with
      | nil => rfl
      | cons c cs =>
        have hc : c ∈ after := mem_reverse.1 (hrev ▸ mem_cons_self)
        rw [takeWhile_cons_of_neg]
        rw [PyClasses.isWord_space c (hspace c hc)]
        exact Bool.false_ne_true
    rw [hnone, append_nil]
    exact (List.takeWhile_prefix _).eq_of_length hlen
  · rfl

theorem isWord_of_toLower (h : c.toLower.isLower = true) : isWord c = true := by
  have hbounds := Ascii.isLower_iff.1 h
  have hc : c.toNat < 128 ∧ c.isAlphanum = true := by
    by_cases hupper : 65 ≤ c.toNat ∧ c.toNat ≤ 90
    · refine ⟨by omega, ?_⟩
      rw [Char.isAlphanum, Ascii.isAlpha_eq, Ascii.isUpper_iff.2 hupper, Bool.true_or, Bool.true_or]
    · rw [Ascii.toLower_eq c hupper] at h hbounds
      refine ⟨by omega, ?_⟩
      rw [Char.isAlphanum, Ascii.isAlpha_eq, h, Bool.or_true, Bool.true_or]
  rw [PyClasses.isWord_ascii c hc.1, hc.2, Bool.true_or]

/-- words of ASCII letters, in any case -/
theorem isWord_of_letters {w t : List Char} (ht : t.all Char.isLower = true) (h : w.map Char.toLower = t) :
    ∀ c ∈ w, isWord c = true := fun _ hc =>
  isWord_of_toLower (all_eq_true.1 ht _ (h ▸ mem_map_of_mem hc))

/-- a word with a character behind it that is none of a word -/
theorem takeWhile_isWord {w : List Char} (hw : ∀ c ∈ w, isWord c = true) {s : List Char}
    (hs : ∀ c ∈ s.head?, isWord c = false) : (w ++ s).takeWhile isWord = w := by
  rw [takeWhile_append_of_pos hw]
  cases s with
  | nil => rw [takeWhile_nil, append_nil]
  | cons c s =>
    rw [takeWhile_cons_of_neg, append_nil]
    rw [hs c rfl]
    exact Bool.false_ne_true

/-- the first word of a text that begins with `WITH` and a blank -/
theorem with_word {l : List Char} (h : "with ".toList <+: l.map Char.toLower) :
    (l.takeWhile isWord).map Char.toLower = "with".toList := by
  obtain ⟨rest, hrest⟩ := h
  obtain ⟨head, tail, rfl, hhead, -⟩ := map_eq_append_iff.1 hrest.symm
  obtain ⟨word, blank, rfl, hword, hblank⟩ := map_eq_append_iff.1 (hhead.trans (by decide :
    "with ".toList = "with".toList ++ [' ']))
  obtain ⟨c, rfl, hc⟩ : ∃ c, blank = [c] ∧ c.toLower = ' ' := by
    cases blank with
    | nil => cases hblank
    | cons c cs =>
      rw [map_cons, List.cons.injEq, map_eq_nil_iff] at hblank
      exact ⟨c, by rw [hblank.2], hblank.1⟩
  have hstop : isWord c = false := by
    by_cases hupper : 65 ≤ c.toNat ∧ c.toNat ≤ 90
    · have hnat := Ascii.toNat_toLower c hupper
      rw [hc] at hnat
      have hblank : ' '.toNat = 32 := by decide
      omega
    · rw [Ascii.toLower_eq c hupper] at hc
      rw [hc]
      exact PyClasses.isWord_ascii ' ' (by decide)
  rw [append_assoc, takeWhile_isWord (isWord_of_letters (by decide) hword), hword]
  intro d hd
  cases hd
  exact hstop

/-- **Accepted texts.** The first word behind the blanks and comments, as the guard takes them out, is a command. -/
theorem accepted_word {sql : String} (h : ensureSelectStatement sql = .ok ()) :
    ((bare none 0 (opening isSpace comment 0 sql.toList)).dropWhile isSpace |>.takeWhile
      isWord).map Char.toLower ∈ commands := by
  rw [← bare_opening none 0 sql.toList, ← takeWhile_trim]
  set stripped := trim isSpace (bare none 0 sql.toList) with hstripped
  have htext : (strip (String.ofList (sqlCommentRe.sub (fun _ => []) sql.toList))).toList = stripped := by
    rw [PyStrip.toList_strip, String.toList_ofList]
    rfl
  simp only [ensureSelectStatement, htext] at h
  split_ifs at h with hempty
  have hdrop : stripped.dropWhile isSpace = stripped :=
    dropWhile_of_head _ _ (trim_trimmed isSpace _).head
  rw [sqlCommandRe, hdrop] at h
  cases hword : stripped.takeWhile isWord with
  | nil =>
    rw [hword] at h
    cases h
  | cons c w =>
    rw [hword] at h
    simp only [ne_eq] at h
    split_ifs at h with hcommand
    rw [not_and_or, not_not, not_not] at hcommand
    rcases hcommand with hselect | hwith
    · have heq := PyKeywords.lower_eq _ _ (by decide) hselect
      rw [String.toList_ofList] at heq
      rw [heq]
      exact mem_cons_self
    · have hprefix := PyKeywords.lower_prefix _ _ (by decide) (by decide) hwith
      rw [htext] at hprefix
      rw [← hword, with_word hprefix]
      exact mem_cons_of_mem _ mem_cons_self

/-! ## What the source sees -/

variable (L : SourceLexer)

/-- the source's first word is that of the guard: `\w` takes in the same characters, and no more of them stand behind
the comments that follow -/
def WordEnds (cs : List Char) : Prop :=
  cs.takeWhile isWord = L.headWord cs ∧
    ∀ c ∈ (opening (fun _ => false) comment 0 (cs.dropWhile isWord)).head?, isWord c = false

/-- the first word of a text: where the source's first blanks and comments end as the guard's do, the word ends as the
guard's does; where they do not, a query stands behind them -/
def FirstWord (text : String) (ts : List Token) : Prop :=
  (opening L.isSpace L.comment 0 text.toList = opening isSpace comment 0 text.toList →
    WordEnds L (opening isSpace comment 0 text.toList)) ∧
  (opening L.isSpace L.comment 0 text.toList ≠ opening isSpace comment 0 text.toList → isQuery ts = true)

/-- what the guard leaves to the text: its first word is that of the guard, and a query has no writing part -/
structure Harmless (text : String) (ts : List Token) : Prop where
  first : FirstWord L text ts
  list : withWrites (nest ts) = false
  into : selectsInto (nest ts) = false
  parts : anyWrites (nest ts) = false

variable {L}

/-- the source's first word, in small letters, is a query command exactly where it is the guard's -/
theorem wordEnds_iff (hword : ((bare none 0 (c :: cs)).takeWhile isWord).map Char.toLower ∈ commands) :
    WordEnds L (c :: cs) ↔ (L.headWord (c :: cs)).map Char.toLower ∈ queryCommands := by
  set w := (c :: cs).takeWhile isWord with hw
  set rest := (c :: cs).dropWhile isWord with hrest
  have hall : ∀ d ∈ w, isWord d = true := fun d hd => all_eq_true.1 all_takeWhile d hd
  obtain ⟨b, hbare⟩ := bare_word none w rest hall
  rw [hw, hrest, takeWhile_append_dropWhile, ← hw, ← hrest] at hbare
  rw [hbare, takeWhile_append_of_pos hall] at hword
  have hhead := head_bare b 0 rest
  constructor
  · rintro ⟨hsame, hstop⟩
    rw [← hrest, ← hhead] at hstop
    have hnone : (bare b 0 rest).takeWhile isWord = [] := by
      cases hcs : bare b 0 rest with
      | nil => rfl
      | cons d ds =>
        rw [hcs] at hstop
        rw [takeWhile_cons_of_neg]
        rw [hstop d rfl]
        exact Bool.false_ne_true
    rw [hnone, append_nil] at hword
    rw [← hsame, ← hw]
    exact mem_queryCommands hword
  · intro hquery
    -- one command is no beginning of another, so nothing stands between the three words
    have hstart : ∀ x ∈ queryCommands, ∀ y ∈ commands, x <+: y → x = y := by decide
    have hletters : ∀ x ∈ queryCommands, x.all Char.isLower = true := by decide
    have hle : L.headWord (c :: cs) <+: w := by
      obtain ⟨more, hmore⟩ := headWord_prefix (L := L) (c :: cs)
      have hsplit : w = L.headWord (c :: cs) ++ more.takeWhile isWord := by
        rw [hw]
        conv_lhs => rw [← hmore]
        exact takeWhile_append_of_pos (isWord_of_letters (hletters _ hquery) rfl)
      exact hsplit ▸ prefix_append _ _
    have heq := congrArg List.length
      (hstart _ hquery _ hword ((hle.trans (prefix_append _ _)).map Char.toLower))
    rw [length_map, length_map, length_append] at heq
    have hlength := hle.length_le
    have hsame : L.headWord (c :: cs) = w := hle.eq_of_length (by omega)
    refine ⟨hsame.symm, ?_⟩
    rw [← hrest, ← hhead]
    intro d hd
    by_contra hne
    have hnone : (bare b 0 rest).takeWhile isWord = [] := eq_nil_of_length_eq_zero (by omega)
    obtain ⟨ds, hds⟩ := head?_eq_some_iff.1 hd
    rw [hds, takeWhile_cons_of_pos (Bool.not_eq_false _ ▸ hne)] at hnone
    cases hnone

theorem firstWord_iff {text : String} (h : ensureSelectStatement text = .ok ()) {ts : List Token}
    (hts : L.statements text.toList = [ts]) : FirstWord L text ts ↔ isQuery ts = true := by
  have hguard := accepted_word h
  by_cases hsame : opening L.isSpace L.comment 0 text.toList = opening isSpace comment 0 text.toList
  · rw [FirstWord, and_iff_left fun hne => absurd hsame hne, forall_prop_of_true hsame]
    cases hopen : opening isSpace comment 0 text.toList with
    | nil =>
      rw [hopen] at hguard
      exact absurd (show [] ∈ commands from hguard) (by decide)
    | cons c cs =>
      obtain ⟨hspace, hcomment⟩ := opening_cons hopen
      obtain ⟨hblank, hnone⟩ := opening_cons (hsame.trans hopen)
      rw [hopen, bare_other none hcomment, dropWhile_cons_of_neg (by rw [hspace]; exact Bool.false_ne_true),
        ← bare_other none hcomment] at hguard
      rw [wordEnds_iff hguard]
      have hc : isWord c = true := by
        by_contra hne
        rw [bare_other none hcomment, takeWhile_cons_of_neg hne] at hguard
        exact absurd hguard (by decide)
      have hlex := lex_opening (L := L) 0 text.toList
      rw [hsame, hopen, SourceLexer.lex, if_neg (by rw [hblank]; exact Bool.false_ne_true), hnone] at hlex
      rw [SourceLexer.headWord]
      split_ifs with hstart
      · rw [if_pos hstart] at hlex
        obtain ⟨more, rfl⟩ := statement_head hts hlex Token.noConfusion
        exact decide_eq_true_iff.symm
      · rw [if_neg hstart] at hlex
        refine iff_of_false (by decide) ?_
        cases hquoted : L.quoted (c :: cs) with
        | some n =>
          rw [hquoted] at hlex
          obtain ⟨more, rfl⟩ := statement_head hts hlex Token.noConfusion
          exact Bool.false_ne_true
        | none =>
          have hsymbol : ∀ d, isWord d = false → Token.symbol c ≠ .symbol d := by
            rintro d hd heq
            rw [Token.symbol.inj heq, hd] at hc
            cases hc
          rw [hquoted] at hlex
          obtain ⟨more, rfl⟩ := statement_head hts hlex (hsymbol ';' (PyClasses.isWord_ascii ';' (by decide)))
          rw [isQuery, dropWhile_cons_of_neg]
          · exact Bool.false_ne_true
          · simpa using hsymbol '(' (PyClasses.isWord_ascii '(' (by decide))
  · rw [FirstWord, and_iff_right fun heq => absurd heq hsame, forall_prop_of_true hsame]

/-- **What is handed to the source.** A text that the guard accepts writes nothing at the source exactly when it is one
statement whose first word is the guard's, without a writing part. -/
theorem writesNothing_iff (L : SourceLexer) {sql text : String} (h : executedText sql = .ok text) :
    WritesNothing L text ↔ ∃ ts, L.statements sql.toList = [ts] ∧ Harmless L sql ts := by
  obtain ⟨⟨⟩, hok, hsql⟩ := of_bind_ok h
  obtain rfl : sql = text := Except.ok.inj hsql
  refine exists_congr fun ts => and_congr_right fun hts => ?_
  rw [writes, Bool.or_eq_false_iff, Bool.or_eq_false_iff, Bool.or_eq_false_iff, ← firstWord_iff hok hts]
  constructor
  · rintro ⟨hfirst, ⟨⟨-, hlist⟩, hinto⟩, hparts⟩
    exact ⟨hfirst, hlist, hinto, hparts⟩
  · rintro ⟨hfirst, hlist, hinto, hparts⟩
    exact ⟨hfirst, ⟨⟨verb_of_isQuery ((firstWord_iff hok hts).1 hfirst), hlist⟩, hinto⟩, hparts⟩

end Words

/-! ## A source -/

open scoped Ascii

scoped instance : PyKeywords where
  lower_eq s t _ h := by
    rw [← h]
    exact (String.toList_ofList).symm
  lower_prefix s t _ _ h := by
    rw [← String.toList_ofList (l := s.toList.map Char.toLower)]
    exact h

/-- the length of the quoted piece that ends at the first `close`, without its first character -/
def quotedLength (close : Char) : List Char → ℕ
  | [] => 0
  | c :: cs => if c = close then 1 else 1 + quotedLength close cs

/-- comments and quoted pieces of the standard; a quote that is doubled begins another piece -/
def standard : SourceLexer where
  isSpace := Ascii.isSpace
  isStart c := c.isAlpha || c = '_'
  isWord := Ascii.isWord
  comment := comment
  quoted
    | '\'' :: cs => some (1 + quotedLength '\'' cs)
    | '"' :: cs => some (1 + quotedLength '"' cs)
    | _ => none

/-- a text of two statements, the second of which drops a table -/
theorem drop_after_select : executedText "SELECT 1; DROP TABLE t" = .ok "SELECT 1; DROP TABLE t" ∧
    ¬WritesNothing standard "SELECT 1; DROP TABLE t" := by
  refine ⟨by decide +kernel, ?_⟩
  rintro ⟨ts, hts, -⟩
  have hlength : (standard.statements "SELECT 1; DROP TABLE t".toList).length = 2 := by decide +kernel
  rw [hts] at hlength
  cases hlength

example : (standard.statements "SELECT a, TRUNCATE(b, 2) INTO t FROM u".toList).map writes = [true] := by
  decide +kernel

/-- semicolons and commands in strings and comments are none of the source's -/
theorem quoted_drop : WritesNothing standard "/* a */ SELECT '; DROP TABLE t' -- ;" := by
  have hexecuted : executedText "/* a */ SELECT '; DROP TABLE t' -- ;" =
      .ok "/* a */ SELECT '; DROP TABLE t' -- ;" := by decide +kernel
  have hopening : opening standard.isSpace standard.comment 0 "/* a */ SELECT '; DROP TABLE t' -- ;".toList =
      opening isSpace comment 0 "/* a */ SELECT '; DROP TABLE t' -- ;".toList := rfl
  have hword : opening isSpace comment 0 "/* a */ SELECT '; DROP TABLE t' -- ;".toList =
      "SELECT '; DROP TABLE t' -- ;".toList := by decide +kernel
  have hends : WordEnds standard "SELECT '; DROP TABLE t' -- ;".toList := by
    refine ⟨by decide +kernel, fun c hc => ?_⟩
    cases hc
    rfl
  refine (writesNothing_iff standard hexecuted).2 ⟨[.word "select".toList, .quoted], by decide +kernel,
    ⟨fun _ => hword ▸ hends, fun h => absurd hopening h⟩, ?_, ?_, ?_⟩
  all_goals decide +kernel

end Langbridge.Connectors.SelectGuard
