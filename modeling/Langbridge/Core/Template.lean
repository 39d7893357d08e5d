/-
The replacement of a match as a text with escapes (`repl` of `re.sub`). A pattern without groups has the whole match
only, `\g<0>`; other groups, and letters that make no escape, are errors. A backslash before any other character stays.
-/
import Mathlib.Tactic

namespace Langbridge.Core.Template

/-- `0-7` -/
def octal? (c : Char) : Option ℕ := if '0' ≤ c ∧ c ≤ '7' then some (c.toNat - 48) else none

/-- the escapes of one letter -/
def letter? (c : Char) : Option Char :=
  [( 'a', Char.ofNat 7), ( 'b', Char.ofNat 8), ( 'f', Char.ofNat 12), ( 'n', '\n'), ( 'r', '\r'), ( 't', '\t'),
    ( 'v', Char.ofNat 11), ( '\\', '\\')].lookup c

/-- the octal digits that a text begins with, so many at most -/
def octals : ℕ → List Char → List ℕ
  | 0, _ => []
  | _, [] => []
  | n + 1, c :: cs =>
    match octal? c with
    | some d => d :: octals n cs
    | none => []

/-- the number that octal digits stand for -/
def octalValue (digits : List ℕ) : ℕ := digits.foldl (fun value d => 8 * value + d) 0

/-- what stands behind a backslash: the number of its characters, and what they stand for, characters or the match -/
def escape : List Char → Option (ℕ × List (Option Char))
  | [] => none
  | c :: cs =>
    if c = 'g' then
      let name := (cs.drop 1).takeWhile (· ≠ '>')
      if cs.head? = some '<' ∧ name ≠ [] ∧ name.all (· = '0') ∧ (cs.drop (name.length + 1)).head? = some '>' then
        some (name.length + 3, [none])
      else none
    else if c = '0' then
      let digits := octals 2 cs
      some (digits.length + 1, [some (Char.ofNat (octalValue digits))])
    else if c.isDigit then
      let digits := octals 3 (c :: cs)
      if digits.length = 3 ∧ octalValue digits ≤ 255 then some (3, [some (Char.ofNat (octalValue digits))]) else none
    else
      match letter? c with
      | some e => some (1, [some e])
      | none => if c.isAlpha then none else some (1, [some '\\', some c])

/-- `parse_template`, once the next characters are dropped -/
def template : ℕ → List Char → Option (List (Option Char))
  | _, [] => some []
  | skip + 1, _ :: cs => template skip cs
  | 0, c :: cs =>
    if c = '\\' then
      match escape cs with
      | some (n, d) => (template n cs).map (d ++ ·)
      | none => none
    else (template 0 cs).map (some c :: ·)

/-- the text that replaces a match -/
def expand (repl whole : List Char) : Option (List Char) :=
  (template 0 repl).map fun items => items.flatMap fun item => (item.map fun c => [c]).getD whole

end Langbridge.Core.Template
