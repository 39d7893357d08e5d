/-
Rendering parameters into SQL (`runtime/utils/sql.py`): every placeholder of the text is replaced by the literal of its
value, first the ones written with braces and then, in the text this gives, the ones written with a colon.
-/
import Langbridge.Core.Dict
import Langbridge.Runtime.SqlTokens

namespace Langbridge.Runtime.SqlParams

open Core List PyText Option

/-! ## Values and their literals -/

/-- the texts of Python floats: `nan`, `inf`, or digits with a sign, a point and an exponent -/
def isFloatText (cs : List Char) : Bool :=
  ["nan".toList, "inf".toList, "-inf".toList].contains cs ||
    (cs.head?.any fun c => c.isDigit || c = '-') && cs.all fun c => c.isDigit || ['.', 'e', '+', '-'].contains c

/-- `str` of a float -/
structure FloatText where
  text : List Char
  ok : isFloatText text = true

/-- `isoformat()` of a datetime, a date or a time -/
structure MomentText where
  text : List Char
  ok : '\'' ∉ text

/-- parameter values; `dict` holds what `json.dumps` gives, `text` what `str` gives of any other value -/
inductive SqlValue where
  | none
  | bool (b : Bool)
  | int (i : ℤ)
  | float (f : FloatText)
  | moment (m : MomentText)
  | many (items : List SqlValue)
  | dict (dumped : List Char)
  | text (s : List Char)

/-- `value.replace("'", "''")` -/
def escape (s : List Char) : List Char := s.flatMap fun c => if c = '\'' then ['\'', '\''] else [c]

def quoted (s : List Char) : List Char := '\'' :: (escape s ++ ['\''])

mutual

def toSqlLiteral : SqlValue → List Char
  | .none => "NULL".toList
  | .bool b => if b then ['1'] else ['0']
  | .int i => (toString i).toList
  | .float f => f.text
  | .moment m => '\'' :: (m.text ++ ['\''])
  | .many items => '(' :: (itemLiterals items ++ [')'])
  | .dict dumped => quoted dumped
  | .text s => quoted s

/-- `", ".join(_to_sql_literal(item) for item in value)` -/
def itemLiterals : List SqlValue → List Char
  | [] => []
  | [v] => toSqlLiteral v
  | v :: items => toSqlLiteral v ++ [',', ' '] ++ itemLiterals items

end

/-! ## Placeholders -/

/-- `[a-zA-Z_]` -/
def identStart (c : Char) : Bool := c.isAlpha || c = '_'

/-- `[a-zA-Z0-9_]` -/
def identPart (c : Char) : Bool := c.isAlphanum || c = '_'

/-- a piece of a text: a character, or a placeholder -/
inductive Piece where
  | char (c : Char)
  | template (name : List Char)
  | colon (name : List Char)
  deriving DecidableEq

section Scan

variable [PyText]

def isIdent : List Char → Bool
  | [] => false
  | c :: cs => identStart c && cs.all identPart

/-- a match of `_PARAM_TEMPLATE_PATTERN` at the start of a text: the number of characters after the first one, and the
placeholder -/
def templateAt (_ : Bool) : List Char → Option (ℕ × Piece)
  | '{' :: '{' :: cs =>
    let inner := cs.dropWhile isSpace
    let name := inner.takeWhile identPart
    if isIdent name then
      match (inner.dropWhile identPart).dropWhile isSpace with
      | '}' :: '}' :: tail => some (cs.length + 1 - tail.length, .template name)
      | _ => none
    else none
  | _ => none

/-- a match of `_PARAM_COLON_PATTERN` at the start of a text that stands after a colon or not. The closing `\b` makes the
name the whole run of word characters, or there is no match. -/
def colonAt (afterColon : Bool) : List Char → Option (ℕ × Piece)
  | ':' :: cs =>
    let name := cs.takeWhile isWord
    if !afterColon && isIdent name then some (name.length, .colon name) else none
  | _ => none

/-- a placeholder of either form -/
def placeholderAt (afterColon : Bool) (cs : List Char) : Option (ℕ × Piece) :=
  (templateAt afterColon cs).or (colonAt afterColon cs)

/-- the pieces that `re.sub` finds in a text, left to right; the number is how many characters a match still takes -/
def scan (pattern : Bool → List Char → Option (ℕ × Piece)) : Bool → ℕ → List Char → List Piece
  | _, _, [] => []
  | _, n + 1, c :: cs => scan pattern (c = ':') n cs
  | afterColon, 0, c :: cs =>
    match pattern afterColon (c :: cs) with
    | some (n, p) => p :: scan pattern (c = ':') n cs
    | none => .char c :: scan pattern (c = ':') 0 cs

def templatePieces (cs : List Char) : List Piece := scan templateAt false 0 cs

def colonPieces (cs : List Char) : List Piece := scan colonAt false 0 cs

end Scan

/-! ## Rendering -/

/-- the parameters by name -/
abbrev Params : Type := Dict (List Char) SqlValue

/-- `re.sub` with `_replace` -/
def replace (params : Params) : List Piece → Except String (List Char)
  | [] => .ok []
  | .char c :: ps => do return c :: (← replace params ps)
  | .template n :: ps | .colon n :: ps =>
    match params.get? n with
    | none => .error ("Missing SQL parameter '" ++ String.ofList n ++ "'.")
    | some v => do return toSqlLiteral v ++ (← replace params ps)

def renderSqlWithParams [PyText] (query : List Char) (params : Params) : Except String (List Char) := do
  let rendered ← replace params (templatePieces query)
  replace params (colonPieces rendered)

/-! ## Characters -/

theorem identPart_of_identStart {c : Char} (h : identStart c = true) : identPart c = true := by
  rw [identStart, Bool.or_eq_true] at h
  rw [identPart, Bool.or_eq_true, Char.isAlphanum, Bool.or_eq_true]
  rcases h with h | h
  · exact .inl (.inl h)
  · exact .inr h

theorem ascii_of_identPart {c : Char} (h : identPart c = true) : c.toNat < 128 := by
  simp only [identPart, Char.isAlphanum, Ascii.isAlpha_eq, Bool.or_eq_true, Ascii.isUpper_iff, Ascii.isLower_iff,
    Char.isDigit, Bool.and_eq_true, decide_eq_true_eq] at h
  rcases h with ((h | h) | h) | h
  · omega
  · omega
  · have h57 : c.toNat ≤ 57 := h.2
    omega
  · rw [h]
    decide

section Characters

variable [PyText]

/-- on ASCII, `\w` is `[a-zA-Z0-9_]` -/
def WordTable : Prop := ∀ c : Char, c.toNat < 128 → isWord c = identPart c

variable (hword : WordTable)

include hword

theorem isWord_of_identPart {c : Char} (h : identPart c = true) : isWord c = true := by
  rw [hword c (ascii_of_identPart h)]
  exact h

theorem isWord_of_isIdent {cs : List Char} (h : isIdent cs = true) : ∀ c ∈ cs, isWord c = true := by
  cases cs with
  | nil => cases h
  | cons d cs =>
    rw [isIdent, Bool.and_eq_true, List.all_eq_true] at h
    intro c hc
    rcases mem_cons.1 hc with rfl | hc
    · exact isWord_of_identPart hword (identPart_of_identStart h.1)
    · exact isWord_of_identPart hword (h.2 c hc)

theorem isWord_colon : isWord ':' = false := by
  rw [hword ':' (by decide)]
  decide

theorem isWord_quote : isWord '\'' = false := by
  rw [hword '\'' (by decide)]
  decide

theorem isWord_paren : isWord ')' = false := by
  rw [hword ')' (by decide)]
  decide

theorem isWord_brace : isWord '\x7b' = false := by
  rw [hword '\x7b' (by decide)]
  decide

end Characters

/-! ## The shape of literals -/

theorem not_identStart_of_isDigit {c : Char} (h : c.isDigit = true) : identStart c = false := by
  simp only [Char.isDigit, Bool.and_eq_true, decide_eq_true_eq] at h
  have hval : c.toNat ≤ 57 := h.2
  rw [identStart, Bool.or_eq_false_iff, decide_eq_false_iff_not]
  constructor
  · rw [← Bool.not_eq_true, Ascii.isAlpha_eq, Bool.or_eq_true, Ascii.isUpper_iff, Ascii.isLower_iff]
    omega
  · rintro rfl
    exact absurd hval (by decide)

theorem digits_int (i : ℤ) : (toString i).toList ≠ [] ∧ ∀ c ∈ (toString i).toList, c.isDigit = true ∨ c = '-' := by
  have hnat : ∀ n : ℕ, (toString n).toList ≠ [] ∧ ∀ c ∈ (toString n).toList, c.isDigit = true := by
    intro n
    have hrepr : (toString n).toList = Nat.toDigits 10 n := by
      simp
    rw [hrepr]
    refine ⟨?_, fun c hc => Nat.isDigit_of_mem_toDigits (by decide) (by decide) hc⟩
    exact Nat.toDigits_ne_nil
  cases i with
  | ofNat n =>
    exact ⟨(hnat n).1, fun c hc => .inl ((hnat n).2 c hc)⟩
  | negSucc n =>
    have hi : (toString (Int.negSucc n)).toList = '-' :: (toString (n + 1)).toList := by
      have : toString (Int.negSucc n) = "-" ++ toString (n + 1) := rfl
      rw [this, String.toList_append]
      rfl
    rw [hi]
    refine ⟨cons_ne_nil _ _, fun c hc => ?_⟩
    rcases mem_cons.1 hc with rfl | hc
    · exact .inr rfl
    · exact .inl ((hnat _).2 c hc)

section Shape

variable [PyText]

/-- what the passes can see of a literal: it neither begins nor ends with a colon, a colon in it is followed by a
character of no word, and one that begins like a name is a name -/
structure LiteralShape (cs : List Char) : Prop where
  nonempty : cs ≠ []
  head : ∀ c ∈ cs.head?, c ≠ ':'
  notColon : ∀ c ∈ cs.getLast?, c ≠ ':'
  closed : ':' ∈ cs → ∀ c ∈ cs.getLast?, isWord c = false
  name : ∀ c ∈ cs.head?, identStart c = true → isIdent cs = true

theorem shape_of_ends (first last : Char) (cs : List Char) (hfirst : identStart first = false)
    (hhead : first ≠ ':') (hcolon : last ≠ ':') (hlast : isWord last = false) :
    LiteralShape (first :: (cs ++ [last])) := by
  have hget : (first :: (cs ++ [last])).getLast? = some last := by
    rw [← cons_append, getLast?_append, getLast?_singleton, some_or]
  refine ⟨cons_ne_nil _ _, ?_, ?_, ?_, ?_⟩
  · intro c hc
    rw [head?_cons, mem_def, Option.some.injEq] at hc
    rwa [← hc]
  · intro c hc
    rw [hget, mem_def, Option.some.injEq] at hc
    rwa [← hc]
  · intro _ c hc
    rw [hget, mem_def, Option.some.injEq] at hc
    rwa [← hc]
  · intro c hc h
    rw [head?_cons, mem_def, Option.some.injEq] at hc
    rw [← hc, hfirst] at h
    cases h

theorem shape_of_noColon (cs : List Char) (hne : cs ≠ []) (hcolon : ':' ∉ cs)
    (hname : ∀ c ∈ cs.head?, identStart c = true → isIdent cs = true) : LiteralShape cs := by
  refine ⟨hne, fun c hc h => ?_, fun c hc h => ?_, fun h => absurd h hcolon, hname⟩
  · rw [h] at hc
    exact hcolon (mem_of_mem_head? hc)
  · rw [h] at hc
    exact hcolon (mem_of_getLast? hc)

theorem float_shape (f : FloatText) : LiteralShape f.text := by
  have hok := f.ok
  rw [isFloatText, Bool.or_eq_true, Bool.and_eq_true, List.all_eq_true] at hok
  rcases hok with hspecial | ⟨hhead, hall⟩
  · rw [contains_iff_mem] at hspecial
    simp only [mem_cons, not_mem_nil, or_false] at hspecial
    rcases hspecial with h | h | h
    · rw [h]
      exact shape_of_noColon _ (by decide) (by decide) fun _ _ _ => by decide
    · rw [h]
      exact shape_of_noColon _ (by decide) (by decide) fun _ _ _ => by decide
    · rw [h]
      refine shape_of_noColon _ (by decide) (by decide) fun c hc hstart => ?_
      cases hc
      cases hstart
  · cases hf : f.text with
    | nil =>
      rw [hf] at hhead
      cases hhead
    | cons d rest =>
      rw [hf] at hhead hall
      refine shape_of_noColon _ (cons_ne_nil _ _) (fun hcolon => ?_) fun c hc hstart => ?_
      · exact absurd (hall _ hcolon) (by decide)
      · cases hc
        rw [head?_cons, any_some, Bool.or_eq_true, decide_eq_true_eq] at hhead
        rcases hhead with h | rfl
        · rw [not_identStart_of_isDigit h] at hstart
          cases hstart
        · cases hstart

theorem literal_shape (hword : WordTable) (v : SqlValue) : LiteralShape (toSqlLiteral v) := by
  have hquote : identStart '\'' = false := by decide
  cases v with
  | none =>
    exact shape_of_noColon _ (by decide) (by decide) fun _ _ _ => by decide
  | bool b =>
    cases b with
    | false =>
      refine shape_of_noColon _ (by decide) (by decide) fun c hc h => ?_
      cases hc
      cases h
    | true =>
      refine shape_of_noColon _ (by decide) (by decide) fun c hc h => ?_
      cases hc
      cases h
  | int i =>
    obtain ⟨hne, hdigits⟩ := digits_int i
    refine shape_of_noColon _ hne (fun hcolon => ?_) fun c hc hstart => ?_
    · rcases hdigits _ hcolon with h | h
      · cases h
      · cases h
    · rcases hdigits c (mem_of_mem_head? hc) with h | rfl
      · rw [not_identStart_of_isDigit h] at hstart
        cases hstart
      · cases hstart
  | float f =>
    exact float_shape f
  | moment m =>
    exact shape_of_ends _ _ _ hquote (by decide) (by decide) (isWord_quote hword)
  | many items =>
    exact shape_of_ends _ _ _ (by decide) (by decide) (by decide) (isWord_paren hword)
  | dict dumped =>
    exact shape_of_ends _ _ _ hquote (by decide) (by decide) (isWord_quote hword)
  | text s =>
    exact shape_of_ends _ _ _ hquote (by decide) (by decide) (isWord_quote hword)

end Shape

/-! ## The pieces a pass finds -/

section Pieces

variable [PyText]

/-- the text of characters and of placeholders with a colon -/
def textOf : List Piece → List Char
  | [] => []
  | .char c :: ps => c :: textOf ps
  | .template _ :: ps => textOf ps
  | .colon n :: ps => ':' :: (n ++ textOf ps)

/-- the word characters that pieces begin with -/
def wordRun : List Piece → List Char
  | .char c :: ps => if isWord c then c :: wordRun ps else []
  | _ => []

/-- pieces as a scan finds them: a colon that stands alone is not followed by a name, and a name ends where a word does -/
def Found : Bool → List Piece → Prop
  | _, [] => True
  | afterColon, .char c :: ps => (c = ':' → afterColon = false → isIdent (wordRun ps) = false) ∧ Found (c = ':') ps
  | afterColon, .colon n :: ps => afterColon = false ∧ isIdent n = true ∧ wordRun ps = [] ∧ Found false ps
  | _, .template _ :: ps => Found false ps

def isTemplate : Piece → Bool
  | .template _ => true
  | _ => false

omit [PyText] in
theorem scan_skip (pattern : Bool → List Char → Option (ℕ × Piece)) (afterColon : Bool) (cs : List Char) (c : Char)
    (tail : List Char) :
    scan pattern afterColon (cs.length + 1) (cs ++ c :: tail) = scan pattern (c = ':') 0 tail := by
  induction cs generalizing afterColon with
  | nil => rfl
  | cons d cs ih =>
    exact ih _

/-- a match takes in a name to its end -/
theorem scan_skip_word (hword : WordTable) (pattern : Bool → List Char → Option (ℕ × Piece)) (afterColon : Bool)
    (name tail : List Char) (hname : isIdent name = true) :
    scan pattern afterColon name.length (name ++ tail) = scan pattern false 0 tail := by
  have hne : name ≠ [] := by
    rintro rfl
    cases hname
  have hlast : name.getLast hne ≠ ':' := by
    intro h
    have hcolon := isWord_of_isIdent hword hname _ (getLast_mem hne)
    rw [h, isWord_colon hword] at hcolon
    cases hcolon
  have hsplit : name = name.dropLast ++ [name.getLast hne] := (dropLast_append_getLast hne).symm
  have hlength : name.length = name.dropLast.length + 1 := by
    conv_lhs => rw [hsplit]
    rw [length_append, length_singleton]
  have htext : name ++ tail = name.dropLast ++ name.getLast hne :: tail := by
    conv_lhs => rw [hsplit]
    rw [append_assoc, singleton_append]
  rw [hlength, htext, scan_skip, decide_eq_false hlast]

theorem takeWhile_textOf (hword : WordTable) (ps : List Piece) (h : ∀ p ∈ ps, isTemplate p = false) :
    (textOf ps).takeWhile isWord = wordRun ps := by
  induction ps with
  | nil => rfl
  | cons p ps ih =>
    have htail := ih fun q hq => h q (mem_cons_of_mem _ hq)
    cases p with
    | char c =>
      rw [textOf, wordRun, takeWhile_cons]
      by_cases hc : isWord c = true
      · rw [if_pos hc, if_pos hc, htail]
      · rw [if_neg hc, if_neg hc]
    | template n => cases h _ mem_cons_self
    | colon n =>
      rw [textOf, takeWhile_cons, isWord_colon hword]
      rfl

omit [PyText] in
theorem takeWhile_append_of_all {p : Char → Bool} (l rest : List Char) (h : ∀ c ∈ l, p c = true) :
    (l ++ rest).takeWhile p = l ++ rest.takeWhile p := by
  induction l with
  | nil => rfl
  | cons c l ih =>
    rw [cons_append, takeWhile_cons, if_pos (h c mem_cons_self), ih fun d hd => h d (.tail _ hd)]
    rfl

/-- **The second pass.** It finds given pieces in their text exactly where no lone colon among them is followed by a name
and every name ends where its word does. -/
theorem scanColon_iff (hword : WordTable) (afterColon : Bool) (ps : List Piece) (h : ∀ p ∈ ps, isTemplate p = false) :
    scan colonAt afterColon 0 (textOf ps) = ps ↔ Found afterColon ps := by
  induction ps generalizing afterColon with
  | nil => exact ⟨fun _ => trivial, fun _ => rfl⟩
  | cons p ps ih =>
    have hps : ∀ q ∈ ps, isTemplate q = false := fun q hq => h q (mem_cons_of_mem _ hq)
    have hrun := takeWhile_textOf hword ps hps
    cases p with
    | template n => cases h _ mem_cons_self
    | char c =>
      rw [textOf, scan, Found]
      by_cases hcolon : c = ':' ∧ afterColon = false ∧ isIdent (wordRun ps) = true
      · -- a placeholder is found where the character should be
        obtain ⟨rfl, rfl, hident⟩ := hcolon
        have hmatch : colonAt false (':' :: textOf ps) = some ((wordRun ps).length, .colon (wordRun ps)) := by
          rw [colonAt, hrun, hident]
          rfl
        rw [hmatch]
        constructor
        · intro heq
          cases (List.cons.inj heq).1
        · rintro ⟨hno, _⟩
          rw [hno rfl rfl] at hident
          cases hident
      · have hmatch : colonAt afterColon (c :: textOf ps) = none := by
          by_cases hc : c = ':'
          · subst hc
            rw [colonAt, hrun]
            refine if_neg fun hand => hcolon ⟨rfl, ?_⟩
            rw [Bool.and_eq_true, Bool.not_eq_true'] at hand
            exact hand
          · rw [colonAt]
            intro cs heq
            exact hc (List.cons.inj heq).1
        rw [hmatch]
        constructor
        · intro heq
          refine ⟨fun hc hafter => ?_, (ih _ hps).1 (List.cons.inj heq).2⟩
          cases hident : isIdent (wordRun ps) with
          | false => rfl
          | true => exact absurd ⟨hc, hafter, hident⟩ hcolon
        · rintro ⟨_, hfound⟩
          exact congrArg _ ((ih _ hps).2 hfound)
    | colon n =>
      rw [textOf, scan, Found]
      constructor
      · intro heq
        -- the match is the name
        cases hmatch : colonAt afterColon (':' :: (n ++ textOf ps)) with
        | none =>
          rw [hmatch] at heq
          cases (List.cons.inj heq).1
        | some m =>
          rw [hmatch] at heq
          rw [colonAt] at hmatch
          split_ifs at hmatch with hand
          cases hmatch
          obtain ⟨hpiece, hrest⟩ := List.cons.inj heq
          have hn : (n ++ textOf ps).takeWhile isWord = n := Piece.colon.inj hpiece
          rw [hn, Bool.and_eq_true, Bool.not_eq_true'] at hand
          have hwords := isWord_of_isIdent hword hand.2
          rw [hn, scan_skip_word hword _ _ n _ hand.2] at hrest
          rw [takeWhile_append_of_all _ _ hwords, hrun, append_right_eq_self] at hn
          exact ⟨hand.1, hand.2, hn, (ih _ hps).1 hrest⟩
      · rintro ⟨hafter, hident, hend, hfound⟩
        have hn : (n ++ textOf ps).takeWhile isWord = n := by
          rw [takeWhile_append_of_all _ _ (isWord_of_isIdent hword hident), hrun, hend, append_nil]
        have hmatch : colonAt afterColon (':' :: (n ++ textOf ps)) = some (n.length, .colon n) := by
          rw [colonAt, hn, hafter, hident]
          rfl
        rw [hmatch]
        have hrest : scan colonAt (decide (':' = ':')) n.length (n ++ textOf ps) = ps := by
          rw [scan_skip_word hword _ _ n _ hident]
          exact (ih _ hps).2 hfound
        exact congrArg _ hrest

end Pieces

/-! ## The placeholders of the query -/

section Original

variable [PyText]

def placeholders (query : List Char) : List Piece := scan placeholderAt false 0 query

/-- a template is read up to its last brace -/
theorem templateAt_split {afterColon : Bool} {c : Char} {cs : List Char} {k : ℕ} {p : Piece}
    (h : templateAt afterColon (c :: cs) = some (k, p)) :
    c = '\x7b' ∧ ∃ n inner tail, p = .template n ∧ cs = inner ++ '\x7d' :: tail ∧ k = inner.length + 1 := by
  rw [templateAt.eq_def] at h
  split at h
  · rename_i rest heq
    obtain ⟨rfl, rfl⟩ := List.cons.inj heq
    refine ⟨rfl, ?_⟩
    simp only at h
    split_ifs at h with hident
    split at h
    · rename_i tail htail
      cases h
      set trimmed := rest.dropWhile isSpace with htrimmed
      set after := trimmed.dropWhile identPart with hafter
      have hrest : rest = rest.takeWhile isSpace ++ (trimmed.takeWhile identPart ++
          (after.takeWhile isSpace ++ '\x7d' :: '\x7d' :: tail)) := by
        rw [← htail, takeWhile_append_dropWhile, hafter, takeWhile_append_dropWhile, htrimmed,
          takeWhile_append_dropWhile]
      set mid := rest.takeWhile isSpace ++ (trimmed.takeWhile identPart ++
        (after.takeWhile isSpace ++ ['\x7d'])) with hmid
      have hcut : rest = mid ++ '\x7d' :: tail := by
        rw [hmid]
        conv_lhs => rw [hrest]
        simp only [append_assoc, cons_append, nil_append]
      refine ⟨_, '\x7b' :: mid, tail, rfl, ?_, ?_⟩
      · rw [cons_append, ← hcut]
      · have hlength := congrArg List.length hcut
        rw [length_append, length_cons] at hlength
        rw [length_cons]
        omega
    · cases h
  · cases h

theorem colonAt_split {afterColon : Bool} {c : Char} {cs : List Char} {k : ℕ} {p : Piece}
    (h : colonAt afterColon (c :: cs) = some (k, p)) :
    c = ':' ∧ afterColon = false ∧ ∃ n, n = cs.takeWhile isWord ∧ isIdent n = true ∧ p = .colon n ∧
      k = n.length := by
  rw [colonAt.eq_def] at h
  split at h
  · rename_i rest heq
    obtain ⟨rfl, rfl⟩ := List.cons.inj heq
    simp only at h
    split_ifs at h with hand
    cases h
    rw [Bool.and_eq_true, Bool.not_eq_true'] at hand
    exact ⟨rfl, hand.1, _, rfl, hand.2, rfl, rfl⟩
  · cases h

theorem templateAt_of_isWord (hword : WordTable) (afterColon : Bool) (c : Char) (cs : List Char)
    (hc : isWord c = true) : templateAt afterColon (c :: cs) = none := by
  cases h : templateAt afterColon (c :: cs) with
  | none => rfl
  | some m =>
    rw [(templateAt_split h).1, isWord_brace hword] at hc
    cases hc

theorem colonAt_of_isWord (hword : WordTable) (afterColon : Bool) (c : Char) (cs : List Char)
    (hc : isWord c = true) : colonAt afterColon (c :: cs) = none := by
  cases h : colonAt afterColon (c :: cs) with
  | none => rfl
  | some m =>
    rw [(colonAt_split h).1, isWord_colon hword] at hc
    cases hc

theorem wordRun_scan (hword : WordTable) (afterColon : Bool) (cs : List Char) :
    wordRun (scan placeholderAt afterColon 0 cs) = cs.takeWhile isWord := by
  induction cs generalizing afterColon with
  | nil => rfl
  | cons c cs ih =>
    rw [takeWhile_cons]
    by_cases hc : isWord c = true
    · have hnone : placeholderAt afterColon (c :: cs) = none := by
        rw [placeholderAt, templateAt_of_isWord hword _ _ _ hc, colonAt_of_isWord hword _ _ _ hc]
        rfl
      rw [scan, hnone, if_pos hc]
      simp only [wordRun]
      rw [if_pos hc, ih]
    · rw [if_neg hc, scan]
      cases h : placeholderAt afterColon (c :: cs) with
      | none =>
        simp only [wordRun]
        rw [if_neg hc]
      | some m =>
        obtain ⟨k, p⟩ := m
        rw [placeholderAt, or_eq_some_iff] at h
        rcases h with h | ⟨_, h⟩
        · obtain ⟨_, n, _, _, rfl, _, _⟩ := templateAt_split h
          rfl
        · obtain ⟨_, _, n, _, _, rfl, _⟩ := colonAt_split h
          rfl

/-- what a scan of the query for both forms does at its first character -/
theorem scan_cases (hword : WordTable) (afterColon : Bool) (c : Char) (cs : List Char) :
    (templateAt afterColon (c :: cs) = none ∧ colonAt afterColon (c :: cs) = none ∧
      scan placeholderAt afterColon 0 (c :: cs) = .char c :: scan placeholderAt (c = ':') 0 cs) ∨
    (∃ n inner tail, templateAt afterColon (c :: cs) = some (inner.length + 1, .template n) ∧
      cs = inner ++ '\x7d' :: tail ∧
      scan placeholderAt afterColon 0 (c :: cs) = .template n :: scan placeholderAt false 0 tail) ∨
    (∃ n tail, c = ':' ∧ afterColon = false ∧ isIdent n = true ∧ cs = n ++ tail ∧ tail.takeWhile isWord = [] ∧
      scan placeholderAt afterColon 0 (c :: cs) = .colon n :: scan placeholderAt false 0 tail) := by
  cases h : placeholderAt afterColon (c :: cs) with
  | none =>
    left
    have hnone := h
    rw [placeholderAt, or_eq_none_iff] at hnone
    refine ⟨hnone.1, hnone.2, ?_⟩
    rw [scan, h]
  | some m =>
    obtain ⟨k, p⟩ := m
    right
    have hmatch := h
    rw [placeholderAt, or_eq_some_iff] at hmatch
    rcases hmatch with hmatch | ⟨_, hmatch⟩
    · left
      obtain ⟨_, n, inner, tail, rfl, rfl, rfl⟩ := templateAt_split hmatch
      refine ⟨n, inner, tail, hmatch, rfl, ?_⟩
      rw [scan, h]
      exact congrArg _ (scan_skip _ _ _ _ _)
    · right
      obtain ⟨rfl, hafter, n, hn, hident, rfl, rfl⟩ := colonAt_split hmatch
      have hsplit : cs = n ++ cs.dropWhile isWord := by
        rw [hn, takeWhile_append_dropWhile]
      refine ⟨n, cs.dropWhile isWord, rfl, hafter, hident, hsplit, ?_, ?_⟩
      · cases hd : cs.dropWhile isWord with
        | nil => rfl
        | cons d ds =>
          have hhead := head_dropWhile isWord cs d (by rw [hd]; rfl)
          rw [takeWhile_cons, hhead]
          rfl
      · have hrest : scan placeholderAt (decide (':' = ':')) n.length cs =
            scan placeholderAt false 0 (cs.dropWhile isWord) := by
          conv_lhs => rw [hsplit]
          exact scan_skip_word hword _ _ n _ hident
        rw [scan, h, ← hrest]

theorem found_scan (hword : WordTable) (afterColon : Bool) (cs : List Char) :
    Found afterColon (scan placeholderAt afterColon 0 cs) := by
  induction hlength : cs.length using Nat.strong_induction_on generalizing afterColon cs with
  | _ length ih =>
    cases cs with
    | nil => trivial
    | cons c cs =>
      rw [length_cons] at hlength
      rcases scan_cases hword afterColon c cs with ⟨_, hnone, hscan⟩ | ⟨n, inner, tail, _, hcs, hscan⟩ |
        ⟨n, tail, _, hafter, hident, hcs, hend, hscan⟩
      · rw [hscan]
        refine ⟨fun hc hafter => ?_, ih cs.length (by omega) _ cs rfl⟩
        rw [wordRun_scan hword]
        subst hc hafter
        rw [colonAt] at hnone
        split_ifs at hnone with hand
        rwa [Bool.not_false, Bool.true_and, Bool.not_eq_true] at hand
      · rw [hscan]
        refine ih tail.length ?_ _ tail rfl
        rw [hcs, length_append, length_cons] at hlength
        omega
      · rw [hscan]
        refine ⟨hafter, hident, ?_, ih tail.length ?_ _ tail rfl⟩
        · rw [wordRun_scan hword, hend]
        · rw [hcs, length_append] at hlength
          omega

/-- the first pass leaves the placeholders with a colon as they are written -/
def unread : Piece → List Piece
  | .colon n => .char ':' :: n.map .char
  | p => [p]

theorem scan_template_word (hword : WordTable) (afterColon : Bool) (name tail : List Char)
    (hname : ∀ c ∈ name, isWord c = true) :
    scan templateAt afterColon 0 (name ++ tail) = name.map .char ++ scan templateAt false 0 tail := by
  induction name generalizing afterColon with
  | nil =>
    cases tail with
    | nil => rfl
    | cons c cs => rfl
  | cons c name ih =>
    have hnone := templateAt_of_isWord hword afterColon c (name ++ tail) (hname c mem_cons_self)
    rw [cons_append, scan, hnone]
    exact congrArg _ (ih _ fun d hd => hname d (mem_cons_of_mem _ hd))

theorem templatePieces_eq (hword : WordTable) (afterColon : Bool) (cs : List Char) :
    scan templateAt afterColon 0 cs = (scan placeholderAt afterColon 0 cs).flatMap unread := by
  induction hlength : cs.length using Nat.strong_induction_on generalizing afterColon cs with
  | _ length ih =>
    cases cs with
    | nil => rfl
    | cons c cs =>
      rw [length_cons] at hlength
      rcases scan_cases hword afterColon c cs with ⟨hnone, _, hscan⟩ | ⟨n, inner, tail, hmatch, hcs, hscan⟩ |
        ⟨n, tail, hc, _, hident, hcs, _, hscan⟩
      · rw [hscan, scan, hnone, flatMap_cons, ← ih cs.length (by omega) _ cs rfl]
        rfl
      · have htail : tail.length < length := by
          rw [hcs, length_append, length_cons] at hlength
          omega
        have hrest : scan templateAt (decide (c = ':')) (inner.length + 1) cs = scan templateAt false 0 tail := by
          rw [hcs]
          exact scan_skip _ _ _ _ _
        rw [hscan, scan, hmatch, flatMap_cons, ← ih tail.length htail _ tail rfl, ← hrest]
        rfl
      · have htail : tail.length < length := by
          rw [hcs, length_append] at hlength
          omega
        have hnone : templateAt afterColon (c :: cs) = none := by
          cases h : templateAt afterColon (c :: cs) with
          | none => rfl
          | some m =>
            rw [hc] at h
            exact absurd (templateAt_split h).1 (by decide)
        rw [hscan, scan, hnone, flatMap_cons, ← ih tail.length htail _ tail rfl, hc, hcs]
        exact congrArg _ (scan_template_word hword _ n tail (isWord_of_isIdent hword hident))

end Original
/-! ## One simultaneous substitution -/

section Parts

variable (params : Params)

/-- the literal that a placeholder stands for -/
def literalOf (name : List Char) : List Char := ((params.get? name).map toSqlLiteral).getD []

def expand : List Piece → List Piece
  | [] => []
  | .template n :: ps => (literalOf params n).map .char ++ expand ps
  | .char c :: ps => .char c :: expand ps
  | .colon n :: ps => .colon n :: expand ps

/-- the texts between the placeholders and the literals, in order -/
def parts (text : List Char) : List Piece → List (List Char)
  | [] => [text]
  | .char c :: ps => parts (text ++ [c]) ps
  | .template n :: ps | .colon n :: ps => text :: literalOf params n :: parts [] ps

/-- a placeholder has a value -/
def valued : Piece → Bool
  | .char _ => true
  | .template n | .colon n => (params.get? n).isSome

/-- every placeholder of these pieces has a value -/
def Valued (ps : List Piece) : Prop := ∀ p ∈ ps, valued params p = true

variable {params}

theorem Valued.tail {p : Piece} {ps : List Piece} (h : Valued params (p :: ps)) : Valued params ps := by
  exact fun q hq => h q (mem_cons_of_mem _ hq)

theorem literalOf_of_get {n : List Char} {v : SqlValue} (h : params.get? n = some v) :
    literalOf params n = toSqlLiteral v := by
  rw [literalOf, h]
  rfl

theorem flatten_parts (text : List Char) (ps : List Piece) :
    (parts params text ps).flatten = text ++ (parts params [] ps).flatten := by
  induction ps generalizing text with
  | nil => simp [parts]
  | cons p ps ih =>
    cases p with
    | char c =>
      rw [parts, parts, ih (text ++ [c]), ih ([] ++ [c]), nil_append, append_assoc]
    | template n => simp only [parts, flatten_cons, nil_append]
    | colon n => simp only [parts, flatten_cons, nil_append]

theorem expand_noTemplate (ps : List Piece) : ∀ p ∈ expand params ps, isTemplate p = false := by
  induction ps with
  | nil =>
    intro p hp
    cases hp
  | cons q ps ih =>
    intro p hp
    cases q with
    | char c =>
      rcases mem_cons.1 hp with rfl | hp
      · rfl
      · exact ih p hp
    | colon n =>
      rcases mem_cons.1 hp with rfl | hp
      · rfl
      · exact ih p hp
    | template n =>
      rcases mem_append.1 hp with hp | hp
      · obtain ⟨c, _, rfl⟩ := mem_map.1 hp
        rfl
      · exact ih p hp

/-! ### The two passes -/

theorem replace_chars (cs : List Char) (ps : List Piece) (out : List Char) (h : replace params ps = .ok out) :
    replace params (cs.map .char ++ ps) = .ok (cs ++ out) := by
  induction cs with
  | nil => exact h
  | cons c cs ih =>
    rw [map_cons, cons_append, replace, ih]
    rfl

theorem replace_unread (ps : List Piece) (h : Valued params ps) :
    replace params (ps.flatMap unread) = .ok (textOf (expand params ps)) := by
  induction ps with
  | nil => rfl
  | cons p ps ih =>
    have hps := ih h.tail
    cases p with
    | char c =>
      have hstep : replace params (.char c :: ps.flatMap unread) = .ok (c :: textOf (expand params ps)) := by
        rw [replace, hps]
        rfl
      exact hstep
    | colon n =>
      exact replace_chars (':' :: n) _ _ hps
    | template n =>
      obtain ⟨v, hv⟩ := isSome_iff_exists.1 (h _ mem_cons_self)
      have hstep : replace params (.template n :: ps.flatMap unread) =
          .ok (toSqlLiteral v ++ textOf (expand params ps)) := by
        rw [replace, hv, hps]
        rfl
      have htext : ∀ (cs : List Char) (qs : List Piece), textOf (cs.map .char ++ qs) = cs ++ textOf qs := by
        intro cs qs
        induction cs with
        | nil => rfl
        | cons c cs ihc => rw [map_cons, cons_append, textOf, ihc, cons_append]
      rw [expand, htext, literalOf_of_get hv]
      exact hstep

theorem replace_expand (ps : List Piece) (h : Valued params ps) :
    replace params (expand params ps) = .ok (parts params [] ps).flatten := by
  induction ps with
  | nil => rfl
  | cons p ps ih =>
    have hps := ih h.tail
    cases p with
    | char c =>
      rw [expand, replace, hps, parts, flatten_parts ([] ++ [c])]
      rfl
    | colon n =>
      obtain ⟨v, hv⟩ := isSome_iff_exists.1 (h _ mem_cons_self)
      rw [expand, replace, hv, hps, parts, flatten_cons, flatten_cons, literalOf_of_get hv]
      rfl
    | template n =>
      rw [expand, replace_chars _ _ _ hps, parts, flatten_cons, flatten_cons, nil_append]

end Parts

section Simultaneous

variable [PyText] (params : Params)

/-- the query with every placeholder replaced by the literal of its value -/
def simultaneous (query : List Char) : List Char := (parts params [] (placeholders query)).flatten

/-- rendering is one simultaneous substitution: the second pass finds the placeholders of the query and no others, the
result is the query with each replaced by the literal of its own value, its tokens are those of the texts between the
placeholders and of the literals, and the literal of a text is one string token with that text as its value -/
structure Simultaneous (query : List Char) : Prop where
  scanned : ∀ rendered, replace params (templatePieces query) = .ok rendered →
    colonPieces rendered = expand params (placeholders query)
  rendered : renderSqlWithParams query params = .ok (simultaneous params query)
  tokens : sqlTokens.lex (simultaneous params query) =
    (parts params [] (placeholders query)).flatMap sqlTokens.lex
  strings : ∀ s, ∃ t, sqlTokens.lex (toSqlLiteral (.text s)) = [t] ∧ stringValue t = some s

/-- the next piece is a template whose literal begins with such a character -/
def literalStarts (p : Char → Bool) : List Piece → Bool
  | .template n :: _ => (literalOf params n).head?.any p
  | _ => false

/-- no literal of a template holds a `:name`, none that begins like a name comes directly after a lone colon, and none
that begins like a part of a word comes directly after a `:name` -/
def quiet : Bool → List Piece → Bool
  | _, [] => true
  | afterColon, .char c :: ps =>
    !(c = ':' && !afterColon && literalStarts params identStart ps) && quiet (c = ':') ps
  | _, .colon _ :: ps => !literalStarts params isWord ps && quiet false ps
  | _, .template n :: ps =>
    colonPieces (literalOf params n) = (literalOf params n).map .char && quiet false ps

variable {params}

theorem literalOf_shape (hword : WordTable) {n : List Char} (h : (params.get? n).isSome = true) :
    LiteralShape (literalOf params n) := by
  obtain ⟨v, hv⟩ := isSome_iff_exists.1 h
  rw [literalOf_of_get hv]
  exact literal_shape hword v

theorem replace_templates (hword : WordTable) (query : List Char) (h : Valued params (placeholders query)) :
    replace params (templatePieces query) = .ok (textOf (expand params (placeholders query))) := by
  rw [templatePieces, templatePieces_eq hword]
  exact replace_unread _ h

/-! ### What the second pass finds -/

theorem wordRun_append (cs : List Char) (ps : List Piece) (h : ∃ c ∈ cs, isWord c = false) :
    wordRun (cs.map .char ++ ps) = wordRun (cs.map .char) := by
  induction cs with
  | nil =>
    obtain ⟨c, hc, _⟩ := h
    cases hc
  | cons d cs ih =>
    simp only [map_cons, cons_append, wordRun]
    by_cases hd : isWord d = true
    · rw [if_pos hd, if_pos hd, ih]
      obtain ⟨c, hc, hno⟩ := h
      rcases mem_cons.1 hc with rfl | hc
      · rw [hd] at hno
        cases hno
      · exact ⟨c, hc, hno⟩
    · rw [if_neg hd, if_neg hd]

/-- a literal and what comes after it are scanned apart -/
theorem found_append (cs : List Char) (hcolon : ∀ c ∈ cs.getLast?, c ≠ ':')
    (hclosed : ':' ∈ cs → ∀ c ∈ cs.getLast?, isWord c = false) (afterColon : Bool) (hne : cs ≠ [])
    (ps : List Piece) :
    Found afterColon (cs.map .char ++ ps) ↔ Found afterColon (cs.map .char) ∧ Found false ps := by
  induction cs generalizing afterColon with
  | nil => exact absurd rfl hne
  | cons c cs ih =>
    cases cs with
    | nil =>
      have hc : c ≠ ':' := hcolon c rfl
      simp only [map_cons, map_nil, singleton_append, Found, decide_eq_false hc, and_true]
      constructor
      · rintro ⟨_, hps⟩
        exact ⟨fun h => absurd h hc, hps⟩
      · rintro ⟨_, hps⟩
        exact ⟨fun h => absurd h hc, hps⟩
    | cons d ds =>
      have hlast : (c :: d :: ds).getLast? = (d :: ds).getLast? := getLast?_cons_cons
      rw [hlast] at hcolon hclosed
      have htail := ih hcolon (fun h => hclosed (mem_cons_of_mem _ h)) (c = ':') (cons_ne_nil _ _)
      have hrun : c = ':' → wordRun ((d :: ds).map Piece.char ++ ps) = wordRun ((d :: ds).map Piece.char) := by
        intro hc
        refine wordRun_append _ _ ⟨(d :: ds).getLast (cons_ne_nil _ _), getLast_mem _, ?_⟩
        exact hclosed (by rw [hc]; exact mem_cons_self) _ (getLast?_eq_some_getLast _)
      have hrw : ∀ qs, Found afterColon (.char c :: qs) ↔
          (c = ':' → afterColon = false → isIdent (wordRun qs) = false) ∧ Found (c = ':') qs := fun _ => Iff.rfl
      rw [map_cons, cons_append, hrw, hrw, htail]
      constructor
      · rintro ⟨hlone, hds, hps⟩
        exact ⟨⟨fun hc => by rw [← hrun hc]; exact hlone hc, hds⟩, hps⟩
      · rintro ⟨⟨hlone, hds⟩, hps⟩
        exact ⟨fun hc => by rw [hrun hc]; exact hlone hc, hds, hps⟩

/-- a literal holds no placeholder exactly where a scan finds none in it -/
theorem found_literal (hword : WordTable) (cs : List Char) :
    colonPieces cs = cs.map .char ↔ Found false (cs.map .char) := by
  have htext : textOf (cs.map .char) = cs := by
    induction cs with
    | nil => rfl
    | cons c cs ih => rw [map_cons, textOf, ih]
  rw [← scanColon_iff hword false (cs.map .char), htext, colonPieces]
  intro p hp
  obtain ⟨c, _, rfl⟩ := mem_map.1 hp
  rfl

/-- what comes directly before a literal does not matter to the colons in it -/
theorem found_afterColon (cs : List Char) (h : ∀ c ∈ cs.head?, c ≠ ':') (afterColon : Bool) :
    Found afterColon (cs.map .char) ↔ Found false (cs.map .char) := by
  cases cs with
  | nil => exact Iff.rfl
  | cons c cs =>
    have hc : c ≠ ':' := h c rfl
    constructor
    · rintro ⟨_, hcs⟩
      exact ⟨fun heq => absurd heq hc, hcs⟩
    · rintro ⟨_, hcs⟩
      exact ⟨fun heq => absurd heq hc, hcs⟩

theorem found_expand_template (hword : WordTable) (afterColon : Bool) (n : List Char) (ps : List Piece)
    (hn : (params.get? n).isSome = true) :
    Found afterColon (expand params (.template n :: ps)) ↔
      colonPieces (literalOf params n) = (literalOf params n).map .char ∧ Found false (expand params ps) := by
  have hshape := literalOf_shape hword hn
  rw [expand, found_append _ hshape.notColon hshape.closed _ hshape.nonempty, found_afterColon _ hshape.head,
    found_literal hword]

theorem wordRun_literal (hword : WordTable) (n : List Char) (ps : List Piece) (hn : (params.get? n).isSome = true) :
    (wordRun (expand params (.template n :: ps))).head? = (literalOf params n).head?.filter isWord := by
  have hshape := literalOf_shape hword hn
  rw [expand]
  cases hlit : literalOf params n with
  | nil => exact absurd hlit hshape.nonempty
  | cons c cs =>
    simp only [map_cons, cons_append, wordRun, head?_cons, filter_some]
    by_cases hc : isWord c = true
    · rw [if_pos hc, if_pos hc, head?_cons]
    · rw [if_neg hc, if_neg hc]
      rfl

/-- a run of word characters only grows where the literals are put in, and one that was empty begins with a literal -/
theorem wordRun_expand (hword : WordTable) (ps : List Piece) (h : Valued params ps) :
    ∃ more, wordRun (expand params ps) = wordRun ps ++ more ∧
      ∀ c ∈ more.head?, wordRun ps = [] → isWord c = true ∧
        ∃ n rest, ps = .template n :: rest ∧ (literalOf params n).head? = some c := by
  induction ps with
  | nil => exact ⟨[], rfl, fun c hc => by cases hc⟩
  | cons p ps ih =>
    cases p with
    | colon n => exact ⟨[], rfl, fun c hc => by cases hc⟩
    | char c =>
      by_cases hc : isWord c = true
      · obtain ⟨more, hmore, _⟩ := ih h.tail
        refine ⟨more, ?_, ?_⟩
        · simp only [expand, wordRun, if_pos hc]
          rw [hmore, cons_append]
        · intro d _ hnil
          simp only [wordRun, if_pos hc] at hnil
          cases hnil
      · refine ⟨[], ?_, fun d hd => by cases hd⟩
        simp only [expand, wordRun, if_neg hc, append_nil]
    | template n =>
      refine ⟨wordRun (expand params (.template n :: ps)), rfl, ?_⟩
      intro c hc _
      rw [wordRun_literal hword n ps (h _ mem_cons_self), mem_def, filter_eq_some_iff] at hc
      exact ⟨hc.2, n, ps, rfl, hc.1⟩

omit [PyText] in
theorem isIdent_of_append (cs more : List Char) (hne : cs ≠ []) (h : isIdent (cs ++ more) = true) :
    isIdent cs = true := by
  cases cs with
  | nil => exact absurd rfl hne
  | cons c cs =>
    rw [cons_append, isIdent, Bool.and_eq_true, all_append, Bool.and_eq_true] at h
    rw [isIdent, Bool.and_eq_true]
    exact ⟨h.1, h.2.1⟩

/-- a lone colon that is followed by no name is followed by none in the text of the first pass, unless a literal that
begins like a name comes next -/
theorem lone_expand (hword : WordTable) (ps : List Piece) (h : Valued params ps)
    (hident : isIdent (wordRun ps) = false) (hstarts : literalStarts params identStart ps = false) :
    isIdent (wordRun (expand params ps)) = false := by
  obtain ⟨more, hmore, hhead⟩ := wordRun_expand hword ps h
  rw [hmore, ← Bool.not_eq_true]
  intro hall
  by_cases hnil : wordRun ps = []
  · rw [hnil, nil_append] at hall
    cases more with
    | nil => cases hall
    | cons c more =>
      obtain ⟨_, n, rest, rfl, hlit⟩ := hhead c rfl hnil
      rw [isIdent, Bool.and_eq_true] at hall
      rw [literalStarts, hlit, any_some, hall.1] at hstarts
      cases hstarts
  · rw [isIdent_of_append _ _ hnil hall] at hident
    cases hident

/-- a name takes in no literal that does not begin like a part of a word -/
theorem ends_expand (hword : WordTable) (ps : List Piece) (h : Valued params ps) (hend : wordRun ps = []) :
    wordRun (expand params ps) = [] ↔ literalStarts params isWord ps = false := by
  obtain ⟨more, hmore, hhead⟩ := wordRun_expand hword ps h
  constructor
  · intro hnil
    cases ps with
    | nil => rfl
    | cons p ps =>
      cases p with
      | char c => rfl
      | colon n => rfl
      | template n =>
        have hlit := wordRun_literal hword n ps (h _ mem_cons_self)
        rw [hnil] at hlit
        rw [literalStarts]
        cases hl : (literalOf params n).head? with
        | none => rfl
        | some c =>
          rw [hl, filter_some] at hlit
          rw [any_some]
          by_contra hc
          rw [Bool.not_eq_false] at hc
          rw [if_pos hc] at hlit
          cases hlit
  · intro hstarts
    rw [hmore, hend, nil_append]
    cases more with
    | nil => rfl
    | cons c more =>
      obtain ⟨hc, n, rest, rfl, hlit⟩ := hhead c rfl hend
      rw [literalStarts, hlit, any_some, hc] at hstarts
      cases hstarts

theorem found_of_quiet (hword : WordTable) (afterColon : Bool) (ps : List Piece) (h : Valued params ps)
    (hfound : Found afterColon ps) (hquiet : quiet params afterColon ps = true) :
    Found afterColon (expand params ps) := by
  induction ps generalizing afterColon with
  | nil => trivial
  | cons p ps ih =>
    cases p with
    | char c =>
      rw [quiet, Bool.and_eq_true, Bool.not_eq_true'] at hquiet
      refine ⟨fun hc hafter => ?_, ih _ h.tail hfound.2 hquiet.2⟩
      refine lone_expand hword ps h.tail (hfound.1 hc hafter) ?_
      have hno := hquiet.1
      rwa [hc, hafter, decide_eq_true rfl, Bool.not_false, Bool.true_and, Bool.true_and] at hno
    | colon n =>
      rw [quiet, Bool.and_eq_true, Bool.not_eq_true'] at hquiet
      obtain ⟨hafter, hident, hend, hps⟩ := hfound
      exact ⟨hafter, hident, (ends_expand hword ps h.tail hend).2 hquiet.1, ih _ h.tail hps hquiet.2⟩
    | template n =>
      rw [quiet, Bool.and_eq_true, decide_eq_true_eq] at hquiet
      rw [found_expand_template hword _ n ps (h _ mem_cons_self)]
      exact ⟨hquiet.1, ih _ h.tail hfound hquiet.2⟩

/-! ### Tokens at the ends of literals -/

theorem last_word (t : Token Char LexState) (cs : List Char) (ht : t.state = .word)
    (hcs : ∀ c ∈ cs, isWord c = true) : (sqlTokens.last t cs).state = .word := by
  induction cs generalizing t with
  | nil => exact ht
  | cons c cs ih =>
    have hstep : sqlTokens.step t.state c = some .word := by
      rw [ht]
      exact if_pos (hcs c mem_cons_self)
    rw [Munch.last, hstep]
    exact ih _ rfl fun d hd => hcs d (mem_cons_of_mem _ hd)

/-- a name takes in a word character after it -/
theorem joins_name (hword : WordTable) (name : List Char) (d : Char) (ds : List Char) (hname : isIdent name = true) :
    sqlTokens.joins name (d :: ds) = isWord d := by
  cases name with
  | nil => cases hname
  | cons c cs =>
    have hwords := isWord_of_isIdent hword hname
    rw [isIdent, Bool.and_eq_true] at hname
    have hfirst : LexState.first c = .word := by
      have hne : ∀ d, identStart d = false → c ≠ d := by
        rintro d hd rfl
        rw [hname.1] at hd
        cases hd
      have hspace : c.isWhitespace = false := by
        rw [Char.isWhitespace, decide_eq_false (hne ' ' (by decide)), decide_eq_false (hne '\t' (by decide)),
          decide_eq_false (hne '\r' (by decide)), decide_eq_false (hne '\n' (by decide))]
        rfl
      have hdigit : c.isDigit = false := by
        cases hd : c.isDigit with
        | false => rfl
        | true =>
          rw [not_identStart_of_isDigit hd] at hname
          cases hname.1
      rw [LexState.first, hspace, hdigit, hwords c mem_cons_self, if_neg (by decide),
        if_neg (hne _ (by decide)), if_neg (hne _ (by decide)), if_neg (hne _ (by decide)), if_neg (hne _ (by decide)),
        if_neg (by decide), if_pos rfl]
    have hlast := last_word ⟨sqlTokens.first c, [c]⟩ cs hfirst fun e he => hwords e (mem_cons_of_mem _ he)
    rw [Munch.joins, hlast]
    change (if isWord d then some LexState.word else none).isSome = _
    cases isWord d <;> rfl

theorem wordRun_name (hword : WordTable) (n : List Char) (ps : List Piece) (hps : Valued params ps)
    (hname : isIdent (literalOf params n) = true)
    (hjoins : sqlTokens.joins (literalOf params n) (parts params [] ps).flatten = false) :
    wordRun (expand params (.template n :: ps)) = literalOf params n := by
  -- the next character belongs to no word
  have hnext : wordRun (expand params ps) = [] := by
    cases ps with
    | nil => rfl
    | cons p ps =>
      cases p with
      | colon m => rfl
      | char c =>
        rw [parts, flatten_parts, nil_append, singleton_append, joins_name hword _ _ _ hname] at hjoins
        simp only [expand, wordRun]
        rw [hjoins, if_neg (by decide)]
      | template m =>
        have hm : (params.get? m).isSome = true := hps (.template m) mem_cons_self
        have hlit := wordRun_literal hword m ps hm
        rw [parts, flatten_cons, flatten_cons, nil_append] at hjoins
        cases hl : literalOf params m with
        | nil => exact absurd hl (literalOf_shape hword hm).nonempty
        | cons c cs =>
          rw [hl, cons_append, joins_name hword _ _ _ hname] at hjoins
          rw [hl, head?_cons, filter_some, hjoins, if_neg (by decide)] at hlit
          exact head?_eq_none_iff.1 hlit
  have hrun : ∀ cs : List Char, (∀ c ∈ cs, isWord c = true) →
      wordRun (cs.map .char ++ expand params ps) = cs := by
    intro cs hcs
    induction cs with
    | nil => exact hnext
    | cons c cs ih =>
      simp only [map_cons, cons_append, wordRun, if_pos (hcs c mem_cons_self)]
      rw [ih fun d hd => hcs d (mem_cons_of_mem _ hd)]
  exact hrun _ (isWord_of_isIdent hword hname)

theorem quiet_of_found (hword : WordTable) (afterColon : Bool) (text : List Char) (ps : List Piece)
    (h : Valued params ps) (hfound : Found afterColon ps) (hexpand : Found afterColon (expand params ps))
    (hapart : sqlTokens.Apart (parts params text ps)) : quiet params afterColon ps = true := by
  induction ps generalizing afterColon text with
  | nil => rfl
  | cons p ps ih =>
    cases p with
    | char c =>
      rw [quiet, Bool.and_eq_true, Bool.not_eq_true']
      refine ⟨?_, ih _ _ h.tail hfound.2 hexpand.2 hapart⟩
      rw [← Bool.not_eq_true, Bool.and_eq_true, Bool.and_eq_true, decide_eq_true_eq, Bool.not_eq_true']
      rintro ⟨⟨hc, hafter⟩, hstarts⟩
      -- the literal after the colon would be read as a name
      cases ps with
      | nil => cases hstarts
      | cons q ps =>
        cases q with
        | char d => cases hstarts
        | colon m => cases hstarts
        | template n =>
          have hn : (params.get? n).isSome = true := h.tail (.template n) mem_cons_self
          rw [literalStarts] at hstarts
          cases hhead : (literalOf params n).head? with
          | none =>
            rw [hhead] at hstarts
            cases hstarts
          | some d =>
            rw [hhead, any_some] at hstarts
            have hname := (literalOf_shape hword hn).name d hhead hstarts
            have hrun := wordRun_name hword n ps h.tail.tail hname hapart.2.1
            have hno := hexpand.1 hc hafter
            rw [hrun, hname] at hno
            cases hno
    | colon n =>
      obtain ⟨_, _, hend, hps⟩ := hfound
      obtain ⟨_, _, hend', hps'⟩ := hexpand
      rw [quiet, Bool.and_eq_true, Bool.not_eq_true']
      exact ⟨(ends_expand hword ps h.tail hend).1 hend', ih _ _ h.tail hps hps' hapart.2.2⟩
    | template n =>
      rw [found_expand_template hword _ n ps (h _ mem_cons_self)] at hexpand
      rw [quiet, Bool.and_eq_true, decide_eq_true_eq]
      exact ⟨hexpand.1, ih _ _ h.tail hfound hexpand.2 hapart.2.2⟩

/-! ### Literals of texts -/

omit [PyText] in
/-- an escaped text and its last quote belong to the string token that has begun, where two quotes do not end it -/
theorem run_escape {σ : Type} {M : Munch Char σ} {text textEnd : σ} (hend : M.step text '\'' = some textEnd)
    (hagain : M.step textEnd '\'' = some text) (hother : ∀ c, c ≠ '\'' → M.step text c = some text)
    (acc s : List Char) :
    M.run ⟨text, acc⟩ (escape s ++ ['\'']) = [⟨textEnd, acc ++ (escape s ++ ['\''])⟩] := by
  induction s generalizing acc with
  | nil =>
    change M.run ⟨text, acc⟩ ['\''] = _
    rw [Munch.run, hend, Munch.run]
    rfl
  | cons c s ih =>
    have hescape : escape (c :: s) = (if c = '\'' then ['\'', '\''] else [c]) ++ escape s := rfl
    rw [hescape]
    by_cases hc : c = '\''
    · -- the first quote may end the token, the second one says that it does not
      rw [if_pos hc, append_assoc, cons_append, cons_append, nil_append, Munch.run, hend]
      change M.run ⟨textEnd, acc ++ ['\'']⟩ ('\'' :: (escape s ++ ['\''])) = _
      rw [Munch.run, hagain]
      refine (ih _).trans ?_
      simp only [append_assoc, cons_append, nil_append]
    · rw [if_neg hc, append_assoc, singleton_append, Munch.run, hother c hc]
      refine (ih _).trans ?_
      simp only [append_assoc, cons_append, nil_append]

omit [PyText] in
theorem unescape_escape (s : List Char) : unescape (escape s) = s := by
  induction s with
  | nil => rfl
  | cons c s ih =>
    have hescape : escape (c :: s) = (if c = '\'' then ['\'', '\''] else [c]) ++ escape s := rfl
    rw [hescape]
    by_cases hc : c = '\''
    · subst hc
      change '\'' :: unescape (escape s) = _
      rw [ih]
    · rw [if_neg hc, singleton_append, unescape, ih]
      rintro rest rfl
      exact absurd rfl hc

/-- **Literals.** The literal of a text is one string token with the text as its value. -/
theorem literal_lexes (s : List Char) :
    ∃ t, sqlTokens.lex (toSqlLiteral (.text s)) = [t] ∧ stringValue t = some s := by
  refine ⟨⟨.textEnd, '\'' :: (escape s ++ ['\''])⟩, ?_, ?_⟩
  · exact run_escape rfl rfl (fun c hc => if_neg hc) ['\''] s
  · rw [stringValue, if_pos rfl, drop_one, tail_cons, dropLast_concat, unescape_escape]

/-! ### Rendering -/

/-- **Rendering.** Where every placeholder has a value, the two passes are one simultaneous substitution if and only if no
literal of a template holds a `:name`, none completes a name with a colon, and every placeholder stands apart from the
tokens beside it. -/
theorem render_simultaneous_iff (hword : WordTable) (params : Params) (query : List Char)
    (hvalues : Valued params (placeholders query)) :
    Simultaneous params query ↔
      quiet params false (placeholders query) = true ∧ sqlTokens.Apart (parts params [] (placeholders query)) := by
  have hfirst := replace_templates hword query hvalues
  have hfound : Found false (placeholders query) := found_scan hword false query
  have hscan : colonPieces (textOf (expand params (placeholders query))) = expand params (placeholders query) ↔
      Found false (expand params (placeholders query)) := scanColon_iff hword false _ (expand_noTemplate _)
  constructor
  · intro h
    have hapart := (Munch.lex_flatten_iff _).1 h.tokens
    exact ⟨quiet_of_found hword false [] _ hvalues hfound (hscan.1 (h.scanned _ hfirst)) hapart, hapart⟩
  · rintro ⟨hquiet, hapart⟩
    have hpieces := hscan.2 (found_of_quiet hword false _ hvalues hfound hquiet)
    refine ⟨?_, ?_, (Munch.lex_flatten_iff _).2 hapart, literal_lexes⟩
    · intro rendered hrendered
      rw [hfirst] at hrendered
      rw [← Except.ok.inj hrendered]
      exact hpieces
    · have hsecond : renderSqlWithParams query params =
          replace params (colonPieces (textOf (expand params (placeholders query)))) := by
        rw [renderSqlWithParams, hfirst]
        rfl
      rw [hsecond, hpieces]
      exact replace_expand _ hvalues

end Simultaneous
/-! ## Two queries -/

section Queries

open scoped Ascii

theorem ascii_wordTable : WordTable := fun _ _ => rfl

/-- a value that reads `:b`, and a value for `b` -/
def nested : Params :=
  (Dict.empty.set "a".toList (.text ":b".toList)).set "b".toList (.text " OR 1=1 --".toList)

/-- the value is scanned again, and the value of `b` ends its quotes -/
theorem colonInValue_rescanned :
    Valued nested (placeholders "x = \x7b\x7ba\x7d\x7d".toList) ∧
      renderSqlWithParams "x = \x7b\x7ba\x7d\x7d".toList nested = .ok "x = '' OR 1=1 --''".toList ∧
      simultaneous nested "x = \x7b\x7ba\x7d\x7d".toList = "x = ':b'".toList ∧
      ¬ Simultaneous nested "x = \x7b\x7ba\x7d\x7d".toList := by
  have hrender : renderSqlWithParams "x = \x7b\x7ba\x7d\x7d".toList nested = .ok "x = '' OR 1=1 --''".toList := by
    rfl
  have hsimultaneous : simultaneous nested "x = \x7b\x7ba\x7d\x7d".toList = "x = ':b'".toList := by decide
  refine ⟨?_, hrender, hsimultaneous, fun h => ?_⟩
  · intro p hp
    revert p
    decide
  · have hrendered := h.rendered
    exact absurd (Except.ok.inj hrendered) (by decide)

/-- a name and a list that are put in as they are -/
def plain : Params :=
  (Dict.empty.set "name".toList (.text "O'Neil: x".toList)).set "ids".toList (.many [.int 3, .none])

theorem nameAndIds_rendered :
    Simultaneous plain "SELECT * FROM t WHERE n = :name AND i IN \x7b\x7b ids \x7d\x7d".toList := by
  refine (render_simultaneous_iff ascii_wordTable plain _ ?_).2 ⟨by decide, ?_⟩
  · intro p hp
    revert p
    decide
  · exact ⟨by decide, by decide, by decide, by decide, by decide, trivial⟩

end Queries

end Langbridge.Runtime.SqlParams
