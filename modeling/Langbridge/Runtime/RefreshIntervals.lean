/-
Refresh intervals (`SemanticVectorSearchService._parse_refresh_interval`): the matches of `\d+\s*[smhdw]` are added up,
and the text is accepted if nothing else is left of it but spaces. Letter case is ignored by the pattern, for which the
long s is an `s` too, and `int` refuses numbers of more than 4300 digits.
-/
import Langbridge.Core.Scanner

namespace Langbridge.Runtime.RefreshIntervals

open Core List PyText

/-- `[smhdw]`, whatever the letter case -/
def units : List Char := "smhdwSMHDWſ".toList

/-- the seconds that a unit adds -/
def seconds (unit : Char) : ℕ :=
  match unit.toLower with
  | 's' => 1
  | 'm' => 60
  | 'h' => 3600
  | 'd' => 86400
  | 'w' => 604800
  | _ => 0

class PyDecimals extends PyText where
  decimal : Char → Option ℕ
  decimal_blank : decimal ' ' = none
  decimal_space : ∀ c, isSpace c = true → decimal c = none
  decimal_unit : ∀ c ∈ units, decimal c = none ∧ isSpace c = false

structure Part where
  count : List Char
  blanks : List Char
  unit : Char
  deriving DecidableEq

def Part.text (p : Part) : List Char := p.count ++ (p.blanks ++ [p.unit])

section Intervals

variable [PyDecimals]

open PyDecimals

def isDecimal (c : Char) : Bool := (decimal c).isSome

def numberOf (count : List Char) : ℕ := count.foldl (fun n c => 10 * n + (decimal c).getD 0) 0

/-- `int(count)`; `none` raises -/
def intOf (count : List Char) : Option ℕ := if count.length ≤ 4300 then some (numberOf count) else none

def intervalPart : Pattern Char Part := fun _ text =>
  let count := text.takeWhile isDecimal
  let behind := text.dropWhile isDecimal
  match behind.dropWhile isSpace with
  | unit :: _ =>
    let p : Part := ⟨count, behind.takeWhile isSpace, unit⟩
    if count ≠ [] ∧ unit ∈ units then some (p.text.length, p) else none
  | [] => none

abbrev IntervalPiece := Piece Char Unit Part

def pieces (text : List Char) : List IntervalPiece := intervalPart.pieces (fun _ _ => ()) () none 0 text

def foundText : IntervalPiece → List Char
  | .same _ => []
  | .found _ text _ => text

def foundPart : IntervalPiece → Option Part
  | .same _ => none
  | .found _ _ p => some p

/-- the text that is scanned -/
def normalized (value : Option String) : List Char := (lower (strip (value.getD ""))).toList

/-- `_parse_refresh_interval`; `none` outside raises -/
def parseRefreshInterval (value : Option String) : Option (Option ℕ) :=
  let text := normalized value
  if text = [] then some none
  else do
    let counts ← ((pieces text).filterMap foundPart).mapM fun p => (intOf p.count).map (· * seconds p.unit)
    let consumed := (pieces text).flatMap foundText
    if counts.sum = 0 ∨ text.filter (· ≠ ' ') ≠ consumed.filter (· ≠ ' ') then none else some (some counts.sum)

/-! ## Parts and spaces -/

structure Part.Valid (p : Part) : Prop where
  nonempty : p.count ≠ []
  decimals : ∀ c ∈ p.count, isDecimal c = true
  blanks : ∀ c ∈ p.blanks, isSpace c = true
  unit : p.unit ∈ units

/-- a text of parts and spaces -/
def render (tokens : List (Option Part)) : List Char := tokens.flatMap fun t => (t.map Part.text).getD [' ']

def pieceOf : Option Part → IntervalPiece
  | none => .same ' '
  | some p => .found () p.text p

variable {p : Part} {tokens : List (Option Part)} {text : List Char}

theorem intervalPart_valid (h : p.Valid) (before : Option Char) (rest : List Char) :
    intervalPart before (p.text ++ rest) = some (p.text.length, p) := by
  obtain ⟨hunit, hspace⟩ := decimal_unit p.unit h.unit
  have hstop : Stops isDecimal (p.blanks ++ (p.unit :: rest)) := by
    intro c hc
    cases hb : p.blanks with
    | nil =>
      rw [hb] at hc
      cases hc
      rw [isDecimal, hunit]
      rfl
    | cons b blanks =>
      rw [hb] at hc
      cases hc
      rw [isDecimal, decimal_space _ (h.blanks _ (hb ▸ mem_cons_self))]
      rfl
  have htext : p.text ++ rest = p.count ++ (p.blanks ++ p.unit :: rest) := by simp [Part.text]
  obtain ⟨hcount, hbehind⟩ := takeWhile_eq h.decimals hstop
  obtain ⟨hblanks, hunit⟩ := takeWhile_eq h.blanks (stops_cons hspace)
  rw [intervalPart, htext, hcount, hbehind, hblanks, hunit]
  exact if_pos ⟨h.nonempty, h.unit⟩

theorem intervalPart_blank (before : Option Char) (rest : List Char) : intervalPart before (' ' :: rest) = none := by
  have hblank : ¬isDecimal ' ' = true := by simp [isDecimal, decimal_blank]
  rw [intervalPart, takeWhile_cons_of_neg hblank]
  split
  · exact if_neg fun h => h.1 rfl
  · rfl

/-- a match is a part -/
theorem valid_of_match {before : Option Char} {n : ℕ} (h : intervalPart before text = some (n, p)) :
    p.Valid ∧ 0 < n ∧ text.take n = p.text := by
  unfold intervalPart at h
  dsimp only at h
  split at h
  · rename_i unit rest hrest
    split_ifs at h with hpart
    cases h
    have hvalid : Part.Valid ⟨text.takeWhile isDecimal, (text.dropWhile isDecimal).takeWhile isSpace, unit⟩ :=
      ⟨hpart.1, all_eq_true.1 all_takeWhile, all_eq_true.1 all_takeWhile, hpart.2⟩
    refine ⟨hvalid, by simp [Part.text], ?_⟩
    refine (prefix_iff_eq_take.1 ⟨rest, ?_⟩).symm
    conv_rhs => rw [← takeWhile_append_dropWhile (p := isDecimal) (l := text),
      ← takeWhile_append_dropWhile (p := isSpace) (l := text.dropWhile isDecimal), hrest]
    simp [Part.text]
  · cases h

/-- **The parts of a text** are found. -/
theorem pieces_render (h : ∀ p, some p ∈ tokens → p.Valid) (before : Option Char) :
    intervalPart.pieces (fun _ _ => ()) () before 0 (render tokens) = tokens.map pieceOf := by
  induction tokens generalizing before with
  | nil => rfl
  | cons t tokens ih =>
    have ih := ih fun p hp => h p (mem_cons_of_mem t hp)
    cases t with
    | none =>
      change intervalPart.pieces _ _ _ _ (' ' :: render tokens) = _
      rw [Pattern.pieces_same (intervalPart_blank before _), ih]
      rfl
    | some p =>
      change intervalPart.pieces _ _ _ _ (p.text ++ render tokens) = _
      have hp := h p mem_cons_self
      have hne : p.text ≠ [] := append_ne_nil_of_left_ne_nil hp.nonempty _
      rw [Pattern.pieces_match hne (intervalPart_valid hp before _), ih]
      rfl

omit [PyDecimals] in
@[simp] theorem foundPart_pieceOf (t : Option Part) : foundPart (pieceOf t) = t := by cases t <;> rfl

def pieceText : IntervalPiece → List Char
  | .same c => [c]
  | .found _ text _ => text

theorem text_pieces (before : Option Char) (skip : ℕ) (text : List Char) :
    (intervalPart.pieces (fun _ _ => ()) () before skip text).flatMap pieceText = text.drop skip := by
  induction text generalizing before skip with
  | nil => simp [Pattern.pieces]
  | cons c cs ih =>
    cases skip with
    | succ skip => exact ih _ skip
    | zero =>
      cases hc : intervalPart before (c :: cs) with
      | none => rw [Pattern.pieces_same hc, flatMap_cons, ih]; rfl
      | some found =>
        obtain ⟨-, hpos, -⟩ := valid_of_match hc
        obtain ⟨n, hn⟩ := Nat.exists_eq_add_one.2 hpos
        rw [Pattern.pieces_found hc, flatMap_cons, ih, hn, Nat.add_sub_cancel]
        exact take_append_drop (n + 1) (c :: cs)

omit [PyDecimals] in
/-- what is left beside the matches is nothing but spaces -/
theorem filter_eq_iff (l : List IntervalPiece) :
    (l.flatMap pieceText).filter (· ≠ ' ') = (l.flatMap foundText).filter (· ≠ ' ') ↔ ∀ c, .same c ∈ l → c = ' ' := by
  have hsub : ∀ l : List IntervalPiece, (l.flatMap foundText).Sublist (l.flatMap pieceText) := by
    intro l
    induction l with
    | nil => exact List.Sublist.refl _
    | cons p l ih => cases p with
      | same c => exact ih.cons c
      | found m text p => exact ih.append_left text
  induction l with
  | nil => simp
  | cons p l ih =>
    cases p with
    | found m text p =>
      simpa [pieceText, foundText] using ih
    | same c =>
      by_cases hc : c = ' '
      · subst hc
        simpa [pieceText, foundText] using ih
      · refine iff_of_false (fun heq => ?_) fun h => hc (h c mem_cons_self)
        have hle := ((hsub l).filter (· ≠ ' ')).length_le
        have hlength := congrArg List.length heq
        simp only [flatMap_cons, pieceText, foundText, singleton_append, nil_append,
          filter_cons_of_pos (p := (· ≠ ' ')) (decide_eq_true hc), length_cons] at hlength
        omega

/-- **A text whose matches leave nothing but spaces** is made of parts and spaces. -/
theorem render_pieces (h : ∀ c, .same c ∈ pieces text → c = ' ') :
    (∀ p, some p ∈ (pieces text).map foundPart → p.Valid) ∧ render ((pieces text).map foundPart) = text := by
  have hfound : ∀ {m t p}, .found m t p ∈ pieces text → p.Valid ∧ t = p.text := by
    intro m t p hmem
    obtain ⟨b, cs, n, hmatch, rfl⟩ := Pattern.found_of_mem hmem
    obtain ⟨hvalid, -, htext⟩ := valid_of_match hmatch
    exact ⟨hvalid, htext⟩
  constructor
  · intro p hp
    obtain ⟨piece, hmem, hpart⟩ := mem_map.1 hp
    cases piece with
    | same c => cases hpart
    | found m t q =>
      cases hpart
      exact (hfound hmem).1
  · rw [render, flatMap_map]
    conv_rhs => rw [← drop_zero (l := text), ← text_pieces none 0 text]
    refine flatMap_congr fun piece hmem => ?_
    cases piece with
    | same c => rw [h c hmem]; rfl
    | found m t p => exact (hfound hmem).2.symm

/-! ## What is read -/

/-- the seconds of all parts -/
def total (tokens : List (Option Part)) : ℕ :=
  ((tokens.filterMap id).map fun p => numberOf p.count * seconds p.unit).sum

/-- `int` reads every count -/
def Short (tokens : List (Option Part)) : Prop := ∀ p, some p ∈ tokens → p.count.length ≤ 4300

/-- a text of parts and spaces, of a positive total -/
structure Tokens (text : List Char) (tokens : List (Option Part)) : Prop where
  valid : ∀ p, some p ∈ tokens → p.Valid
  text : render tokens = text
  positive : 0 < total tokens

theorem counts_eq (parts : List Part) :
    (parts.mapM fun p => (intOf p.count).map (· * seconds p.unit)) =
      if ∀ p ∈ parts, p.count.length ≤ 4300 then some (parts.map fun p => numberOf p.count * seconds p.unit)
      else none := by
  induction parts with
  | nil => rfl
  | cons p parts ih =>
    rw [mapM_cons, ih, intOf]
    split_ifs with hp hparts hall hall <;> simp_all

theorem Tokens.pieces (h : Tokens text tokens) : pieces text = tokens.map pieceOf := by
  rw [← h.text, RefreshIntervals.pieces, pieces_render h.valid]

theorem Tokens.unique {tokens' : List (Option Part)} (h : Tokens text tokens) (h' : Tokens text tokens') :
    tokens = tokens' := by
  refine map_injective_iff.2 (fun t t' heq => ?_) (h.pieces.symm.trans h'.pieces)
  rw [← foundPart_pieceOf t, heq, foundPart_pieceOf]

theorem parse_eq_some_iff (value : Option String) (n : ℕ) : parseRefreshInterval value = some (some n) ↔
    ∃ tokens, Tokens (normalized value) tokens ∧ Short tokens ∧ total tokens = n := by
  have hshort : ∀ tokens, (∀ p ∈ tokens.filterMap id, p.count.length ≤ 4300) ↔ Short tokens := by
    intro tokens
    simp [Short]
  rw [parseRefreshInterval]
  generalize normalized value = text
  constructor
  · intro h
    dsimp only at h
    split_ifs at h with hempty
    · cases Option.some.inj h
    rw [counts_eq, Option.bind_eq_bind, Option.bind_eq_some_iff] at h
    obtain ⟨counts, hcounts, h⟩ := h
    split_ifs at hcounts h with hall hbad
    obtain ⟨hpos, htext⟩ := not_or.1 hbad
    have hspaces : ∀ c, .same c ∈ pieces text → c = ' ' := by
      rw [← filter_eq_iff, pieces, text_pieces, drop_zero]
      exact not_not.1 htext
    obtain ⟨hvalid, hrender⟩ := render_pieces hspaces
    have hparts : ((pieces text).map foundPart).filterMap id = (pieces text).filterMap foundPart := by
      rw [filterMap_map]
      rfl
    have htotal : total ((pieces text).map foundPart) = counts.sum := by
      rw [total, hparts, Option.some.inj hcounts]
    refine ⟨_, ⟨hvalid, hrender, htotal ▸ Nat.pos_of_ne_zero hpos⟩, (hshort _).1 (hparts ▸ hall), ?_⟩
    exact htotal.trans (Option.some.inj (Option.some.inj h))
  · rintro ⟨tokens, h, hall, rfl⟩
    have hne : text ≠ [] := by
      rintro rfl
      have hnil := h.pieces
      rw [pieces, Pattern.pieces] at hnil
      have hpos := h.positive
      rw [map_eq_nil_iff.1 hnil.symm] at hpos
      exact absurd hpos (lt_irrefl 0)
    have htext : text.filter (· ≠ ' ') = ((pieces text).flatMap foundText).filter (· ≠ ' ') := by
      have hiff := filter_eq_iff (pieces text)
      rw [pieces, text_pieces, drop_zero, ← pieces] at hiff
      refine hiff.2 fun c hc => ?_
      rw [h.pieces] at hc
      obtain ⟨t, -, ht⟩ := mem_map.1 hc
      cases t with
      | none => cases ht; rfl
      | some p => cases ht
    dsimp only
    have hparts : (tokens.map pieceOf).filterMap foundPart = tokens.filterMap id := by
      rw [filterMap_map]
      exact filterMap_congr fun t _ => foundPart_pieceOf t
    rw [if_neg hne, counts_eq, h.pieces, hparts, if_pos ((hshort tokens).2 hall), ← h.pieces]
    exact if_neg (not_or.2 ⟨h.positive.ne', not_not.2 htext⟩)

/-! ## What an interval says -/

/-- a part as it is meant: nothing but spaces between its count and its unit, which is one of five letters -/
def Part.Plain (p : Part) : Prop := (∀ c ∈ p.blanks, c = ' ') ∧ p.unit ≠ 'ſ'

/-- spaces and letter case aside, a text is counts with units, and they come to a number of seconds -/
def Says (text : List Char) (n : ℕ) : Prop :=
  ∃ tokens, Tokens text tokens ∧ (∀ p, some p ∈ tokens → p.Plain) ∧ total tokens = n

/-- **Refresh intervals.** -/
theorem reads_interval_iff (value : Option String) :
    (∀ n, parseRefreshInterval value = some (some n) ↔ Says (normalized value) n) ↔
      ∀ tokens, Tokens (normalized value) tokens → (Short tokens ↔ ∀ p, some p ∈ tokens → p.Plain) := by
  constructor
  · intro h tokens htokens
    have hiff := h (total tokens)
    rw [parse_eq_some_iff] at hiff
    constructor
    · intro hshort
      obtain ⟨tokens', htokens', hplain, -⟩ := hiff.1 ⟨tokens, htokens, hshort, rfl⟩
      exact htokens.unique htokens' ▸ hplain
    · intro hplain
      obtain ⟨tokens', htokens', hshort, -⟩ := hiff.2 ⟨tokens, htokens, hplain, rfl⟩
      exact htokens.unique htokens' ▸ hshort
  · intro h n
    rw [parse_eq_some_iff]
    exact exists_congr fun tokens => and_congr_right fun htokens => and_congr_left fun _ => h tokens htokens

end Intervals

/-! ## A long s -/

section LongS

open scoped Ascii

scoped instance : PyDecimals where
  decimal c := if c.isDigit then some (c.toNat - 48) else none
  decimal_blank := rfl
  decimal_space c h := if_neg fun hdigit => by
    simp only [isSpace, Ascii.isSpace, Bool.or_eq_true, decide_eq_true_eq] at h
    rcases h with ((((h | h) | h) | h) | h) | h <;> rw [h] at hdigit <;> cases hdigit
  decimal_unit := forall_mem_of_all (by decide)

/-- **A part is skipped**: its unit is a long s, which the pattern takes for an s. -/
theorem long_s : parseRefreshInterval (some "5s3ſ") = some (some 5) ∧
    ¬∀ n, parseRefreshInterval (some "5s3ſ") = some (some n) ↔ Says (normalized (some "5s3ſ")) n := by
  have hrun : parseRefreshInterval (some "5s3ſ") = some (some 5) := by decide +kernel
  refine ⟨hrun, fun h => ?_⟩
  obtain ⟨tokens, htokens, hplain, -⟩ := (h 5).1 hrun
  have hpieces : (pieces (normalized (some "5s3ſ"))).filterMap foundPart = [⟨['5'], [], 's'⟩, ⟨['3'], [], 'ſ'⟩] := by
    decide +kernel
  have hpart : some ⟨['3'], [], 'ſ'⟩ ∈ tokens := by
    have hmem : (⟨['3'], [], 'ſ'⟩ : Part) ∈ (tokens.map pieceOf).filterMap foundPart := by
      rw [← htokens.pieces, hpieces]
      exact mem_cons_of_mem _ mem_cons_self
    simpa using hmem
  exact (hplain _ hpart).2 rfl

end LongS

end Langbridge.Runtime.RefreshIntervals
