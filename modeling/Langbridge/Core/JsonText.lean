/-
JSON texts, as `json.loads` reads them: a scanner for values, with the escapes of strings, the three constants that are
no JSON, and what is a number. A text that is read as an object has its closing brace, strings apart, at its end and
nowhere before it.

Main results: `scan_reads`, `closed_of_loads`.
-/
import Langbridge.Core.Dict
import Langbridge.Core.Json
import Mathlib.Data.List.TakeWhile

namespace Langbridge.Core.JsonText

open List Option

/-! ## Reading -/

/-- the blanks between tokens -/
def isBlank (c : Char) : Bool := c = ' ' || c = '\t' || c = '\n' || c = '\r'

def skipBlanks (cs : List Char) : List Char := cs.dropWhile isBlank

/-- the value of a hexadecimal digit -/
def hex? (c : Char) : Option ℕ :=
  if c.isDigit then some (c.toNat - 48)
  else if ( 'a' ≤ c && c ≤ 'f') then some (c.toNat - 87)
  else if ( 'A' ≤ c && c ≤ 'F') then some (c.toNat - 55)
  else none

/-- four hexadecimal digits -/
def hex4 : List Char → Option (ℕ × List Char)
  | a :: b :: c :: d :: cs => do
    let a ← hex? a
    let b ← hex? b
    let c ← hex? c
    let d ← hex? d
    return (((a * 16 + b) * 16 + c) * 16 + d, cs)
  | _ => none

def codePoint (n : ℕ) : Option Char := if h : n.isValidChar then some (Char.ofNatAux n h) else none

/-- the low half of a pair of surrogates -/
def lowHalf : List Char → Option (ℕ × List Char)
  | '\\' :: 'u' :: cs => (hex4 cs).filter fun r => 0xdc00 ≤ r.1 && r.1 ≤ 0xdfff
  | _ => none

/-- the character that a backslash and what follows it stand for -/
def unescape : List Char → Option (Char × List Char)
  | '"' :: cs => some ( '"', cs)
  | '\\' :: cs => some ( '\\', cs)
  | '/' :: cs => some ( '/', cs)
  | 'b' :: cs => some ( '\x08', cs)
  | 'f' :: cs => some ( '\x0c', cs)
  | 'n' :: cs => some ( '\n', cs)
  | 'r' :: cs => some ( '\r', cs)
  | 't' :: cs => some ( '\t', cs)
  | 'u' :: cs =>
    (hex4 cs).bind fun r =>
      if 0xd800 ≤ r.1 ∧ r.1 ≤ 0xdbff then
        (lowHalf r.2).bind fun low =>
          (codePoint (0x10000 + (r.1 - 0xd800) * 0x400 + (low.1 - 0xdc00))).map fun c => (c, low.2)
      else (codePoint r.1).map fun c => (c, r.2)
  | _ => none

/-- a string after its first quote; a control character ends it with an error -/
def scanString : ℕ → List Char → Option (List Char × List Char)
  | 0, _ => none
  | _ + 1, [] => none
  | n + 1, c :: cs =>
    if c = '"' then some ([], cs)
    else if c = '\\' then
      (unescape cs).bind fun r => (scanString n r.2).map fun s => (r.1 :: s.1, s.2)
    else if c.toNat < 32 then none
    else (scanString n cs).map fun s => (c :: s.1, s.2)

def digitsValue (digits : List Char) : ℕ := digits.foldl (fun n c => 10 * n + (c.toNat - 48)) 0

/-- the digits before the point: a zero stands alone -/
def intDigits : List Char → Option (List Char × List Char)
  | '0' :: cs => some ([ '0'], cs)
  | c :: cs => if c.isDigit then some (c :: cs.takeWhile Char.isDigit, cs.dropWhile Char.isDigit) else none
  | [] => none

/-- the point and the digits after it, if there are some -/
def fraction : List Char → List Char × List Char
  | '.' :: c :: cs =>
    if c.isDigit then ( '.' :: c :: cs.takeWhile Char.isDigit, cs.dropWhile Char.isDigit) else ([], '.' :: c :: cs)
  | cs => ([], cs)

/-- the sign of an exponent -/
def expSign : List Char → List Char × List Char
  | '+' :: cs => ([ '+'], cs)
  | '-' :: cs => ([ '-'], cs)
  | cs => ([], cs)

def exponent : List Char → List Char × List Char
  | e :: cs =>
    if e = 'e' ∨ e = 'E' then
      match (expSign cs).2 with
      | c :: rest =>
        if c.isDigit then (e :: (expSign cs).1 ++ c :: rest.takeWhile Char.isDigit, rest.dropWhile Char.isDigit)
        else ([], e :: cs)
      | [] => ([], e :: cs)
    else ([], e :: cs)
  | [] => ([], [])

/-- the sign of a number -/
def sign : List Char → List Char × List Char
  | '-' :: cs => ([ '-'], cs)
  | cs => ([], cs)

/-- a number; `readFloat` is `repr(float(text))` -/
def scanNumber (readFloat : String → String) (cs : List Char) : Option (Json × List Char) :=
  (intDigits (sign cs).2).map fun digits =>
    let frac := fraction digits.2
    let exp := exponent frac.2
    if frac.1 = [] ∧ exp.1 = [] then
      (.int (if (sign cs).1 = [] then (digitsValue digits.1 : ℤ) else -(digitsValue digits.1 : ℤ)), exp.2)
    else (.float (readFloat (String.ofList ((sign cs).1 ++ digits.1 ++ frac.1 ++ exp.1))), exp.2)

def constants : List (String × Json) :=
  [("null", .null), ("true", .bool true), ("false", .bool false), ("NaN", .float "nan"), ("Infinity", .float "inf"),
    ("-Infinity", .float "-inf")]

def scanLiteral (readFloat : String → String) (cs : List Char) : Option (Json × List Char) :=
  match constants.find? fun e => e.1.toList.isPrefixOf cs with
  | some e => some (e.2, cs.drop e.1.toList.length)
  | none => scanNumber readFloat cs

mutual

def scanValue (readFloat : String → String) : ℕ → List Char → Option (Json × List Char)
  | 0, _ => none
  | _ + 1, [] => none
  | n + 1, c :: cs =>
    if c = '"' then (scanString n cs).map fun r => (.str (String.ofList r.1), r.2)
    else if c = '\x7b' then
      match skipBlanks cs with
      | '\x7d' :: rest => some (.obj [], rest)
      | cs' => (scanMembers readFloat n cs').map fun r => (.obj (Dict.ofList r.1).entries, r.2)
    else if c = '[' then
      match skipBlanks cs with
      | ']' :: rest => some (.arr [], rest)
      | cs' => (scanElements readFloat n cs').map fun r => (.arr r.1, r.2)
    else scanLiteral readFloat (c :: cs)

/-- the members of an object up to its closing brace -/
def scanMembers (readFloat : String → String) : ℕ → List Char → Option (List (String × Json) × List Char)
  | 0, _ => none
  | _ + 1, [] => none
  | n + 1, c :: cs =>
    if c = '"' then
      (scanString n cs).bind fun key =>
        match skipBlanks key.2 with
        | ':' :: rest =>
          (scanValue readFloat n (skipBlanks rest)).bind fun value =>
            match skipBlanks value.2 with
            | '\x7d' :: rest => some ([(String.ofList key.1, value.1)], rest)
            | ',' :: rest =>
              (scanMembers readFloat n (skipBlanks rest)).map fun r => ((String.ofList key.1, value.1) :: r.1, r.2)
            | _ => none
        | _ => none
    else none

/-- the elements of an array up to its closing bracket -/
def scanElements (readFloat : String → String) : ℕ → List Char → Option (List Json × List Char)
  | 0, _ => none
  | n + 1, cs =>
    (scanValue readFloat n cs).bind fun value =>
      match skipBlanks value.2 with
      | ']' :: rest => some ([value.1], rest)
      | ',' :: rest => (scanElements readFloat n (skipBlanks rest)).map fun r => (value.1 :: r.1, r.2)
      | _ => none

end

def loads (readFloat : String → String) (text : List Char) : Option Json :=
  (scanValue readFloat (text.length + 1) (skipBlanks text)).bind fun r =>
    if skipBlanks r.2 = [] then some r.1 else none

example : (loads id "\x7b\"a\": [1, -2.5e3, null], \"b\": \"\\u00e9\"\x7d".toList).isSome = true := by decide +kernel

/-! ## Nesting -/

/-- where a text is read: outside strings, in one, or after a backslash in one -/
inductive Place where
  | outside
  | inside
  | escaped
deriving DecidableEq

/-- a place with the objects that are open there, and the braces in strings that are open there -/
structure Spot where
  place : Place
  depth : ℤ
  surplus : ℤ

/-- what a brace counts -/
def brace (c : Char) : ℤ := if c = '{' then 1 else if c = '}' then -1 else 0

/-- one character further -/
def Spot.step (s : Spot) (c : Char) : Spot :=
  match s.place with
  | .outside => { s with place := if c = '"' then .inside else .outside, depth := s.depth + brace c }
  | .inside =>
    { s with
      place := if c = '"' then .outside else if c = '\\' then .escaped else .inside
      surplus := s.surplus + brace c }
  | .escaped => { s with place := .inside, surplus := s.surplus + brace c }

def Spot.run (s : Spot) (cs : List Char) : Spot := cs.foldl Spot.step s

/-- the start of a text -/
def start : Spot := ⟨.outside, 0, 0⟩

/-- all braces count one -/
theorem run_total (s : Spot) (cs : List Char) :
    (s.run cs).depth + (s.run cs).surplus = s.depth + s.surplus + (cs.map brace).sum := by
  induction cs generalizing s with
  | nil => simp [Spot.run]
  | cons c cs ih =>
    have hstep : (s.step c).depth + (s.step c).surplus = s.depth + s.surplus + brace c := by
      unfold Spot.step
      cases s.place <;> (simp only; ring)
    refine (ih (s.step c)).trans ?_
    rw [hstep, map_cons, sum_cons, add_assoc]

theorem run_append (s : Spot) (x y : List Char) : s.run (x ++ y) = (s.run x).run y := foldl_append

/-- a part of a text that leaves the nesting as it was, and goes no lower -/
structure Neutral (from' to' : Place) (x : List Char) : Prop where
  ends : ∀ s : Spot, s.place = from' → (s.run x).place = to' ∧ (s.run x).depth = s.depth
  above : ∀ s : Spot, s.place = from' → ∀ y, y <+: x → s.depth ≤ (s.run y).depth

theorem Neutral.nil (p : Place) : Neutral p p [] where
  ends _ h := ⟨h, rfl⟩
  above s _ y hy := by
    rw [prefix_nil.1 hy]
    exact le_refl _

theorem Neutral.append {p q r : Place} {x y : List Char} (hx : Neutral p q x) (hy : Neutral q r y) :
    Neutral p r (x ++ y) where
  ends s hs := by
    obtain ⟨hplace, hdepth⟩ := hx.ends s hs
    obtain ⟨hplace', hdepth'⟩ := hy.ends _ hplace
    rw [run_append]
    exact ⟨hplace', hdepth'.trans hdepth⟩
  above s hs z hz := by
    obtain ⟨hplace, hdepth⟩ := hx.ends s hs
    rcases prefix_or_prefix_of_prefix hz (prefix_append x y) with hz | ⟨w, rfl⟩
    · exact hx.above s hs z hz
    · have hw : w <+: y := (prefix_append_right_inj x).1 hz
      rw [run_append, ← hdepth]
      exact hy.above _ hplace w hw

variable {c : Char}

theorem Neutral.single {p q : Place}
    (h : ∀ s : Spot, s.place = p → (s.step c).place = q ∧ (s.step c).depth = s.depth) : Neutral p q [c] where
  ends s hs := h s hs
  above s hs y hy := by
    rcases prefix_cons_iff.1 hy with rfl | ⟨t, rfl, ht⟩
    · exact le_refl _
    · rw [prefix_nil.1 ht]
      exact (h s hs).2.ge

/-- a character that is neither a quote nor a brace -/
def isPlain (c : Char) : Bool := c ≠ '"' && c ≠ '\x7b' && c ≠ '\x7d'

theorem Neutral.plain (h : isPlain c = true) : Neutral .outside .outside [c] := by
  simp only [isPlain, Bool.and_eq_true, decide_eq_true_eq] at h
  obtain ⟨⟨hquote, hopen⟩, hclose⟩ := h
  refine .single fun s hs => ?_
  simp [Spot.step, hs, hquote, hopen, hclose, brace]

variable {x : List Char}

theorem Neutral.plains (h : ∀ c ∈ x, isPlain c = true) : Neutral .outside .outside x := by
  induction x with
  | nil => exact .nil _
  | cons c x ih =>
    rw [forall_mem_cons] at h
    exact (Neutral.plain h.1).append (ih h.2)

theorem Neutral.openQuote : Neutral .outside .inside ['"'] :=
  .single fun s hs => by simp [Spot.step, hs, brace]

theorem Neutral.closeQuote : Neutral .inside .outside ['"'] :=
  .single fun s hs => by simp [Spot.step, hs]

theorem Neutral.backslash : Neutral .inside .escaped ['\\'] :=
  .single fun s hs => by simp [Spot.step, hs]

theorem Neutral.after (c : Char) : Neutral .escaped .inside [c] :=
  .single fun s hs => by simp [Spot.step, hs]

theorem Neutral.letter (hquote : c ≠ '"') (hslash : c ≠ '\\') : Neutral .inside .inside [c] :=
  .single fun s hs => by simp [Spot.step, hs, hquote, hslash]

/-- what is read up to the rest of a text -/
def Reads (p q : Place) (cs rest : List Char) : Prop := ∃ x, cs = x ++ rest ∧ Neutral p q x

theorem Reads.trans {p q r : Place} {a b c : List Char} (h : Reads p q a b) (h' : Reads q r b c) : Reads p r a c := by
  obtain ⟨x, rfl, hx⟩ := h
  obtain ⟨y, rfl, hy⟩ := h'
  exact ⟨x ++ y, (append_assoc x y c).symm, hx.append hy⟩

theorem Reads.cons {p q : Place} (h : Neutral p q [c]) (cs : List Char) : Reads p q (c :: cs) cs :=
  ⟨[c], rfl, h⟩

theorem Reads.refl (p : Place) (cs : List Char) : Reads p p cs cs := ⟨[], rfl, .nil p⟩

theorem plain_of_blank (h : isBlank c = true) : isPlain c = true := by
  simp only [isBlank, Bool.or_eq_true, decide_eq_true_eq] at h
  rcases h with ((rfl | rfl) | rfl) | rfl <;> decide

theorem plain_of_digit (h : c.isDigit = true) : isPlain c = true := by
  have hbounds : 48 ≤ c.toNat ∧ c.toNat ≤ 57 := by
    simp only [Char.isDigit, Bool.and_eq_true, decide_eq_true_eq] at h
    exact h
  simp only [isPlain, Bool.and_eq_true, decide_eq_true_eq]
  refine ⟨⟨?_, ?_⟩, ?_⟩ <;> (rintro rfl; revert hbounds; decide)

theorem reads_takeWhile {p : Char → Bool} (hp : ∀ c, p c = true → isPlain c = true) (cs : List Char) :
    Reads .outside .outside cs (cs.dropWhile p) :=
  ⟨cs.takeWhile p, takeWhile_append_dropWhile.symm,
    .plains fun c hc => hp c (all_eq_true.1 all_takeWhile c hc)⟩

theorem reads_blanks (cs : List Char) : Reads .outside .outside cs (skipBlanks cs) :=
  reads_takeWhile (fun _ => plain_of_blank) cs

theorem reads_digits (cs : List Char) : Reads .outside .outside cs (cs.dropWhile Char.isDigit) :=
  reads_takeWhile (fun _ => plain_of_digit) cs

/-! ## Strings -/

variable {n : ℕ}

theorem letter_of_hex (h : hex? c = some n) : Neutral .inside .inside [c] := by
  refine .letter ?_ ?_
  · rintro rfl
    cases h
  · rintro rfl
    cases h

variable {cs rest : List Char}

theorem hex4_reads (h : hex4 cs = some (n, rest)) : Reads .inside .inside cs rest := by
  unfold hex4 at h
  split at h
  · obtain ⟨a', ha, h⟩ := bind_eq_some_iff.1 h
    obtain ⟨b', hb, h⟩ := bind_eq_some_iff.1 h
    obtain ⟨c', hc, h⟩ := bind_eq_some_iff.1 h
    obtain ⟨d', hd, h⟩ := bind_eq_some_iff.1 h
    obtain ⟨-, rfl⟩ := Prod.mk.inj (Option.some.inj h)
    exact (Reads.cons (letter_of_hex ha) _).trans ((Reads.cons (letter_of_hex hb) _).trans
      ((Reads.cons (letter_of_hex hc) _).trans (Reads.cons (letter_of_hex hd) _)))
  · cases h

theorem lowHalf_reads (h : lowHalf cs = some (n, rest)) : Reads .inside .inside cs rest := by
  unfold lowHalf at h
  split at h
  · obtain ⟨h, -⟩ := filter_eq_some_iff.1 h
    exact (Reads.cons .backslash _).trans ((Reads.cons (.after 'u') _).trans (hex4_reads h))
  · cases h

theorem unescape_reads (h : unescape cs = some (c, rest)) : Reads .escaped .inside cs rest := by
  unfold unescape at h
  split at h
  case h_9 cs =>
    obtain ⟨⟨n, rest'⟩, hhex, h⟩ := bind_eq_some_iff.1 h
    refine (Reads.cons (.after 'u') _).trans ((hex4_reads hhex).trans ?_)
    split_ifs at h
    · obtain ⟨⟨m, rest''⟩, hlow, h⟩ := bind_eq_some_iff.1 h
      obtain ⟨d, -, heq⟩ := map_eq_some_iff.1 h
      obtain ⟨-, rfl⟩ := Prod.mk.inj heq
      exact lowHalf_reads hlow
    · obtain ⟨d, -, heq⟩ := map_eq_some_iff.1 h
      obtain ⟨-, rfl⟩ := Prod.mk.inj heq
      exact .refl _ _
  case h_10 => cases h
  all_goals
    obtain ⟨-, rfl⟩ := Prod.mk.inj (Option.some.inj h)
    exact .cons (.after _) _

theorem scanString_reads {cs s rest : List Char} (h : scanString n cs = some (s, rest)) :
    Reads .inside .outside cs rest := by
  induction n generalizing cs s with
  | zero => cases h
  | succ n ih =>
    cases cs with
    | nil => cases h
    | cons c cs =>
      rw [scanString] at h
      split_ifs at h with hquote hslash hcontrol
      · obtain ⟨rfl, rfl⟩ := Prod.mk.inj (Option.some.inj h)
        rw [hquote]
        exact .cons .closeQuote cs
      · obtain ⟨⟨d, rest'⟩, hunescape, h⟩ := bind_eq_some_iff.1 h
        obtain ⟨⟨s', rest''⟩, hrest, heq⟩ := map_eq_some_iff.1 h
        cases heq
        rw [hslash]
        exact (Reads.cons .backslash cs).trans ((unescape_reads hunescape).trans (ih hrest))
      · obtain ⟨⟨s', rest''⟩, hrest, heq⟩ := map_eq_some_iff.1 h
        cases heq
        exact (Reads.cons (.letter hquote hslash) cs).trans (ih hrest)

/-! ## Values -/

theorem reads_plain (h : isPlain c = true) (cs : List Char) : Reads .outside .outside (c :: cs) cs :=
  .cons (.plain h) cs

theorem sign_reads (cs : List Char) : Reads .outside .outside cs (sign cs).2 := by
  unfold sign
  split
  · exact reads_plain (by decide) _
  · exact .refl _ _

theorem intDigits_reads {cs digits rest : List Char} (h : intDigits cs = some (digits, rest)) :
    Reads .outside .outside cs rest := by
  unfold intDigits at h
  split at h
  · obtain ⟨-, rfl⟩ := Prod.mk.inj (Option.some.inj h)
    exact reads_plain (by decide) _
  · split_ifs at h with hdigit
    obtain ⟨-, rfl⟩ := Prod.mk.inj (Option.some.inj h)
    exact (reads_plain (plain_of_digit hdigit) _).trans (reads_digits _)
  · cases h

theorem fraction_reads (cs : List Char) : Reads .outside .outside cs (fraction cs).2 := by
  unfold fraction
  split
  · split_ifs with hdigit
    · exact (reads_plain (by decide) _).trans ((reads_plain (plain_of_digit hdigit) _).trans (reads_digits _))
    · exact .refl _ _
  · exact .refl _ _

theorem expSign_reads (cs : List Char) : Reads .outside .outside cs (expSign cs).2 := by
  unfold expSign
  split
  · exact reads_plain (by decide) _
  · exact reads_plain (by decide) _
  · exact .refl _ _

theorem exponent_reads (cs : List Char) : Reads .outside .outside cs (exponent cs).2 := by
  unfold exponent
  split
  · rename_i e cs
    split_ifs with he
    · have hplain : isPlain e = true := by rcases he with rfl | rfl <;> decide
      have hsign := expSign_reads cs
      split
      · rename_i c rest hrest
        rw [hrest] at hsign
        split_ifs with hdigit
        · exact (reads_plain hplain _).trans
            (hsign.trans ((reads_plain (plain_of_digit hdigit) _).trans (reads_digits _)))
        · exact .refl _ _
      · exact .refl _ _
    · exact .refl _ _
  · exact .refl _ _

variable {readFloat : String → String} {v : Json}

theorem scanNumber_reads (h : scanNumber readFloat cs = some (v, rest)) : Reads .outside .outside cs rest := by
  obtain ⟨⟨digits, cs'⟩, hdigits, heq⟩ := map_eq_some_iff.1 h
  have hrest : (exponent (fraction cs').2).2 = rest := by
    dsimp only at heq
    split_ifs at heq <;> exact (Prod.mk.inj heq).2
  rw [← hrest]
  exact (sign_reads cs).trans ((intDigits_reads hdigits).trans ((fraction_reads cs').trans (exponent_reads _)))

theorem scanLiteral_reads (h : scanLiteral readFloat cs = some (v, rest)) : Reads .outside .outside cs rest := by
  unfold scanLiteral at h
  split at h
  · rename_i e he
    obtain ⟨-, rfl⟩ := Prod.mk.inj (Option.some.inj h)
    have hinit := find?_some he
    have hmem := mem_of_find?_eq_some he
    obtain ⟨tail, htail⟩ := isPrefixOf_iff_prefix.1 hinit
    have hplain : ∀ e ∈ constants, e.1.toList.all isPlain = true := all_eq_true.1 (by decide +kernel)
    rw [← htail, drop_left]
    exact ⟨e.1.toList, rfl, .plains (all_eq_true.1 (hplain e hmem))⟩
  · exact scanNumber_reads h

/-- an object without its first brace is read up to its last one, which closes it -/
def ReadsObject (cs rest : List Char) : Prop := ∃ x, cs = x ++ '\x7d' :: rest ∧ Neutral .outside .outside x

theorem ReadsObject.of_reads {a b rest : List Char} (h : Reads .outside .outside a b) (h' : ReadsObject b rest) :
    ReadsObject a rest := by
  obtain ⟨x, rfl, hx⟩ := h
  obtain ⟨y, rfl, hy⟩ := h'
  exact ⟨x ++ y, (append_assoc x y _).symm, hx.append hy⟩

theorem ReadsObject.nil (rest : List Char) : ReadsObject ('\x7d' :: rest) rest := ⟨[], rfl, .nil _⟩

variable {s : Spot}

/-- where an object has been opened, its members are read one level deeper -/
theorem step_open (hs : s.place = .outside) : s.step '\x7b' = { s with depth := s.depth + 1 } := by
  simp [Spot.step, hs, brace]

theorem step_close (hs : s.place = .outside) : s.step '\x7d' = { s with depth := s.depth - 1 } := by
  simp [Spot.step, hs, brace, Int.sub_eq_add_neg]

/-- the nesting inside an object -/
theorem object_run (hx : Neutral .outside .outside x) (hs : s.place = .outside) :
    (∀ y, y <+: '\x7b' :: x → y ≠ [] → s.depth < (s.run y).depth) ∧
      (s.run ( '\x7b' :: x ++ [ '\x7d'])).place = .outside ∧
      (s.run ( '\x7b' :: x ++ [ '\x7d'])).depth = s.depth := by
  have hopen : ∀ y, s.run ( '\x7b' :: y) = Spot.run { s with depth := s.depth + 1 } y := by
    intro y
    rw [Spot.run, foldl_cons, step_open hs]
    rfl
  refine ⟨fun y hy hne => ?_, ?_⟩
  · rcases prefix_cons_iff.1 hy with rfl | ⟨z, rfl, hz⟩
    · exact absurd rfl hne
    · rw [hopen]
      exact Int.lt_of_add_one_le (hx.above { s with depth := s.depth + 1 } hs z hz)
  · obtain ⟨hplace, hdepth⟩ := hx.ends { s with depth := s.depth + 1 } hs
    rw [run_append, hopen]
    change (Spot.step _ _).place = _ ∧ (Spot.step _ _).depth = _
    rw [step_close hplace, hdepth]
    exact ⟨hplace, add_sub_cancel_right s.depth 1⟩

/-- an object leaves the nesting as it was -/
theorem ReadsObject.reads (h : ReadsObject cs rest) : Reads .outside .outside ( '\x7b' :: cs) rest := by
  obtain ⟨x, rfl, hx⟩ := h
  refine ⟨'\x7b' :: x ++ [ '\x7d'], by simp, fun s hs => (object_run hx hs).2, fun s hs y hy => ?_⟩
  rcases prefix_concat_iff.1 hy with rfl | hy
  · exact (object_run hx hs).2.2.ge
  · by_cases hne : y = []
    · rw [hne]
      exact le_refl _
    · exact le_of_lt ((object_run hx hs).1 y hy hne)

/-- an object after its first brace -/
theorem object_reads (hmembers : ∀ cs es rest, scanMembers readFloat n cs = some (es, rest) → ReadsObject cs rest)
    (h : (match skipBlanks cs with
      | '\x7d' :: rest => some (.obj [], rest)
      | cs' => (scanMembers readFloat n cs').map fun r => (.obj (Dict.ofList r.1).entries, r.2)) = some (v, rest)) :
    ReadsObject cs rest := by
  refine .of_reads (reads_blanks cs) ?_
  split at h
  · rename_i rest' hskip
    obtain ⟨-, rfl⟩ := Prod.mk.inj (Option.some.inj h)
    rw [hskip]
    exact .nil _
  · obtain ⟨⟨es, rest'⟩, hes, heq⟩ := map_eq_some_iff.1 h
    obtain ⟨-, rfl⟩ := Prod.mk.inj heq
    exact hmembers _ _ _ hes

/-- **What is read as a value** leaves the nesting as it was. -/
theorem scan_reads (readFloat : String → String) (n : ℕ) :
    (∀ cs v rest, scanValue readFloat n cs = some (v, rest) → Reads .outside .outside cs rest) ∧
    (∀ cs es rest, scanMembers readFloat n cs = some (es, rest) → ReadsObject cs rest) ∧
    (∀ cs vs rest, scanElements readFloat n cs = some (vs, rest) → Reads .outside .outside cs rest) := by
  induction n with
  | zero =>
    refine ⟨fun _ _ _ h => ?_, fun _ _ _ h => ?_, fun _ _ _ h => ?_⟩
    · cases h
    · cases h
    · cases h
  | succ n ih =>
    obtain ⟨ihvalue, ihmembers, ihelements⟩ := ih
    refine ⟨fun cs v rest h => ?_, fun cs es rest h => ?_, fun cs vs rest h => ?_⟩
    · cases cs with
      | nil =>
        cases h
      | cons c cs =>
        rw [scanValue] at h
        split_ifs at h with hquote hbrace hbracket
        · obtain ⟨⟨s, rest'⟩, hstring, heq⟩ := map_eq_some_iff.1 h
          obtain ⟨-, rfl⟩ := Prod.mk.inj heq
          rw [hquote]
          exact (Reads.cons .openQuote cs).trans (scanString_reads hstring)
        · rw [hbrace]
          exact (object_reads ihmembers h).reads
        · rw [hbracket]
          refine (reads_plain (by decide) cs).trans ((reads_blanks cs).trans ?_)
          split at h
          · rename_i rest' hskip
            obtain ⟨-, rfl⟩ := Prod.mk.inj (Option.some.inj h)
            rw [hskip]
            exact reads_plain (by decide) _
          · obtain ⟨⟨vs, rest'⟩, helements, heq⟩ := map_eq_some_iff.1 h
            obtain ⟨-, rfl⟩ := Prod.mk.inj heq
            exact ihelements _ _ _ helements
        · exact scanLiteral_reads h
    · cases cs with
      | nil =>
        cases h
      | cons c cs =>
        rw [scanMembers] at h
        split_ifs at h with hquote
        obtain ⟨⟨key, afterKey⟩, hkey, h⟩ := bind_eq_some_iff.1 h
        rw [hquote]
        refine .of_reads ((Reads.cons .openQuote cs).trans (scanString_reads hkey)) (.of_reads (reads_blanks _) ?_)
        split at h
        · rename_i rest' hskip
          rw [hskip]
          obtain ⟨⟨value, afterValue⟩, hvalue, h⟩ := bind_eq_some_iff.1 h
          refine .of_reads ((reads_plain (by decide) _).trans ((reads_blanks rest').trans
            ((ihvalue _ _ _ hvalue).trans (reads_blanks afterValue)))) ?_
          split at h
          · rename_i rest₂ hskip'
            obtain ⟨-, rfl⟩ := Prod.mk.inj (Option.some.inj h)
            rw [hskip']
            exact .nil _
          · rename_i rest₂ hskip'
            obtain ⟨⟨es', rest₃⟩, hmembers, heq⟩ := map_eq_some_iff.1 h
            obtain ⟨-, rfl⟩ := Prod.mk.inj heq
            rw [hskip']
            exact .of_reads ((reads_plain (by decide) _).trans (reads_blanks _)) (ihmembers _ _ _ hmembers)
          · cases h
        · cases h
    · obtain ⟨⟨value, afterValue⟩, hvalue, h⟩ := bind_eq_some_iff.1 h
      refine (ihvalue _ _ _ hvalue).trans ((reads_blanks afterValue).trans ?_)
      split at h
      · rename_i rest' hskip
        obtain ⟨-, rfl⟩ := Prod.mk.inj (Option.some.inj h)
        rw [hskip]
        exact reads_plain (by decide) _
      · rename_i rest' hskip
        obtain ⟨⟨vs', rest₂⟩, helements, heq⟩ := map_eq_some_iff.1 h
        obtain ⟨-, rfl⟩ := Prod.mk.inj heq
        rw [hskip]
        exact (reads_plain (by decide) _).trans ((reads_blanks _).trans (ihelements _ _ _ helements))
      · cases h

/-- **A text that is read as an object** has its first brace closed by the last one. -/
theorem loads_object (h : loads readFloat ( '\x7b' :: cs) = some v) :
    ∃ x rest, cs = x ++ '\x7d' :: rest ∧ Neutral .outside .outside x ∧ ∀ c ∈ rest, isBlank c = true := by
  obtain ⟨⟨v', rest⟩, hscan, h⟩ := bind_eq_some_iff.1 h
  split_ifs at h with hrest
  obtain ⟨x, rfl, hx⟩ := object_reads (scan_reads readFloat _).2.1 hscan
  exact ⟨x, rest, rfl, hx, dropWhile_eq_nil_iff.1 hrest⟩

/-- a text whose first brace is closed by its last character -/
structure Closed (t : List Char) : Prop where
  inner : ∀ y, y <+: t → y ≠ [] → y ≠ t → 0 < (start.run y).depth
  outer : (start.run t).depth = 0

theorem Closed.of_neutral (hx : Neutral .outside .outside x) : Closed ( '\x7b' :: x ++ [ '\x7d']) where
  inner y hy hne hproper := by
    refine (object_run hx (s := start) rfl).1 y ?_ hne
    exact (prefix_concat_iff.1 hy).resolve_left hproper
  outer := (object_run hx (s := start) rfl).2.2

/-- no such text begins another one -/
theorem Closed.eq_of_begins {a b : List Char} (ha : Closed a) (hb : Closed b) (hne : a ≠ []) (h : a <+: b) : a = b := by
  by_contra hproper
  have hdepth := hb.inner a h hne hproper
  rw [ha.outer] at hdepth
  exact lt_irrefl _ hdepth

/-- a text that is read as an object, from its first brace to its last -/
theorem closed_of_loads
    (h : loads readFloat ( '\x7b' :: cs ++ [ '\x7d']) = some v) : Closed ( '\x7b' :: cs ++ [ '\x7d']) := by
  obtain ⟨x, rest, hcs, hx, hblank⟩ := loads_object h
  have hrest : rest = [] := by
    by_contra hne
    obtain ⟨init, c, rfl⟩ := (eq_nil_or_concat' rest).resolve_left hne
    have hlast := congrArg List.getLast? hcs
    obtain rfl : '\x7d' = c := by simpa [getLast?_cons, getLast?_append] using hlast
    exact absurd (hblank '\x7d' (by simp)) (by decide)
  rw [hrest] at hcs
  obtain rfl : cs = x := append_cancel_right (show cs ++ [ '\x7d'] = x ++ [ '\x7d'] from hcs)
  exact .of_neutral hx

end Langbridge.Core.JsonText
