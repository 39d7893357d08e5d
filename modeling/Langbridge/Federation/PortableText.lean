/-
Portable SQL: what the two rewrites change.

A quotation mark cuts a text into segments. A truncation call lies in one segment; an `INTERVAL` literal is the end of
one segment, the next segment whole, and the beginning of the third. The proofs walk over the segments in this way
(`literal_induction`).
-/
import Langbridge.Federation.PortableSql

namespace Langbridge.Federation.PortableSql

open Core List PyText Option

/-- a call stays in a part of a text, or takes in something of the rest -/
theorem prefix_part {m y t : List Char} (hm : m <+: y ++ t) :
    m <+: y ∨ ∃ more, more ≠ [] ∧ m = y ++ more ∧ more <+: t := by
  rcases prefix_or_prefix_of_prefix hm (prefix_append y t) with h | ⟨more, rfl⟩
  · exact .inl h
  · by_cases hnil : more = []
    · exact .inl ⟨[], by rw [hnil, append_nil, append_nil]⟩
    · exact .inr ⟨more, hnil, rfl, (prefix_append_right_inj y).1 hm⟩

/-- the first quotation mark of a text -/
theorem append_quote_inj {y y' t t' : List Char} (hy : '\'' ∉ y) (hy' : '\'' ∉ y')
    (h : y ++ '\'' :: t = y' ++ '\'' :: t') : y = y' ∧ t = t' := by
  have hsplit : ∀ {z r : List Char}, '\'' ∉ z → (z ++ '\'' :: r).takeWhile (· ≠ '\'') = z := by
    intro z r hz
    refine (takeWhile_eq (fun c hc => ?_) (stops_cons (by decide))).1
    exact decide_eq_true fun heq : c = '\'' => hz (heq ▸ hc)
  have heq : y = y' := by rw [← hsplit (r := t) hy, h, hsplit hy']
  subst heq
  exact ⟨rfl, (List.cons.inj (append_cancel_left h)).2⟩

section Results

variable [PyRegex]

open PyRegex

/-- `_TRUNC_FUNCTION_RE` -/
abbrev truncPattern : Pattern Char (List Char × List Char) := truncCall.pattern atWord

/-- `_INTERVAL_LITERAL_WITH_UNIT_RE` -/
abbrev intervalPattern : Pattern Char (List Char × List Char) := intervalLiteral.pattern atWord

/-! ## Truncation calls in parts of a text -/

theorem TruncText.quote_notMem {m e u : List Char} (h : TruncText m e u) : '\'' ∉ m := by
  obtain ⟨n, w, inner, rfl, hn, hw, hinner, -⟩ := h.shape
  simp only [mem_append, mem_cons, not_or]
  refine ⟨fun hmem => ?_, fun hmem => ?_, by decide, hinner, by decide, not_mem_nil⟩
  · have hword := hn.isWord _ hmem
    rw [isWord_quote] at hword
    cases hword
  · have hspace := hw _ hmem
    rw [isSpace_quote] at hspace
    cases hspace

/-- a call ends at a parenthesis -/
theorem TruncText.getLast {m e u : List Char} (h : TruncText m e u) : m.getLast? = some ')' := by
  obtain ⟨n, w, inner, rfl, -⟩ := h.shape
  rw [← append_assoc, ← cons_append, ← append_assoc, getLast?_concat]

theorem TruncText.prefix_of_close {m e u y t : List Char} (h : TruncText m e u) (ht : ')' ∉ t) (hm : m <+: y ++ t) :
    m <+: y := by
  refine (prefix_part hm).resolve_right ?_
  rintro ⟨more, hne, rfl, hmore⟩
  have hlast := h.getLast
  rw [getLast?_append_of_ne_nil _ hne, getLast?_eq_some_getLast hne, Option.some.injEq] at hlast
  exact ht (hmore.subset (hlast ▸ getLast_mem hne))

/-- a call does not run over a quotation mark -/
theorem TruncText.prefix_of_quote {m e u y t : List Char} (h : TruncText m e u) (hm : m <+: y ++ '\'' :: t) :
    m <+: y := by
  refine (prefix_part hm).resolve_right ?_
  rintro ⟨more, hne, rfl, hmore⟩
  obtain ⟨c, more, rfl⟩ := exists_cons_of_ne_nil hne
  obtain ⟨rfl, -⟩ := cons_prefix_cons.1 hmore
  exact h.quote_notMem (mem_append_right _ mem_cons_self)

theorem trunc_bounded : (truncPattern).Bounded := by
  intro before s n d h
  obtain ⟨-, m, hm, htext, rfl⟩ := trunc_eq_some.1 h
  obtain ⟨n, w, inner, rfl, hn, -⟩ := htext.shape
  refine ⟨?_, hm.length_le⟩
  simp only [length_append, length_cons]
  omega

variable {before : Option Char}

/-- a call that begins in a part of a text and cannot leave it -/
theorem trunc_append {y t : List Char} (h : ∀ m e u, TruncText m e u → m <+: y ++ t → m <+: y) :
    truncPattern before (y ++ t) = truncPattern before y := by
  refine Option.ext fun r => ?_
  rw [trunc_eq_some, trunc_eq_some]
  refine and_congr_right fun _ => exists_congr fun m => ?_
  constructor
  · rintro ⟨hm, htext, hn⟩
    exact ⟨h m _ _ htext hm, htext, hn⟩
  · rintro ⟨hm, htext, hn⟩
    exact ⟨hm.trans (prefix_append y t), htext, hn⟩

/-- calls begin with a letter -/
theorem trunc_of_not_isWord {c : Char} (hc : isWord c = false) (before : Option Char) (cs : List Char) :
    truncPattern before (c :: cs) = none := by
  by_contra hne
  obtain ⟨⟨k, d⟩, hsome⟩ := ne_none_iff_exists'.1 hne
  obtain ⟨-, m, hm, htext, -⟩ := trunc_eq_some.1 hsome
  obtain ⟨n, w, inner, rfl, hn, -⟩ := htext.shape
  obtain ⟨d, n, rfl⟩ := exists_cons_of_length_pos (show 0 < n.length from Nat.lt_of_lt_of_le (by omega) hn.length)
  obtain ⟨rfl, -⟩ := cons_prefix_cons.1 hm
  rw [hn.isWord d mem_cons_self] at hc
  cases hc

/-- what stands before a text is no part of a word, or the text does not begin with one -/
def Fresh (before : Option Char) (s : List Char) : Prop := atWord before = true ∨ Stops isWord s

theorem pattern_fresh {δ : Type} {s : Scanner Char δ}
    (hs : ∀ cs r, s cs = some r → ∃ c t, cs = c :: t ∧ isWord c = true) {cs : List Char}
    (h : Fresh before cs) : s.pattern atWord before cs = s.pattern atWord none cs := by
  rcases h with h | h
  · simp only [Scanner.pattern, h]
    rfl
  · have hnone : s cs = none := by
      by_contra hne
      obtain ⟨r, hsome⟩ := ne_none_iff_exists'.1 hne
      obtain ⟨c, t, rfl, hc⟩ := hs cs r hsome
      rw [h c rfl] at hc
      cases hc
    simp only [Scanner.pattern, hnone, map_none, ite_self]

theorem trunc_fresh {s : List Char} (h : Fresh before s) : truncPattern before s = truncPattern none s := by
  refine pattern_fresh (fun cs r hr => ?_) h
  obtain ⟨m, rfl, htext⟩ := truncCall_eq_some.1 hr
  obtain ⟨n, w, inner, rfl, hn, -⟩ := htext.shape
  obtain ⟨c, n, rfl⟩ := exists_cons_of_length_pos (show 0 < n.length from Nat.lt_of_lt_of_le (by omega) hn.length)
  exact ⟨c, _, rfl, hn.isWord c mem_cons_self⟩

theorem atWord_quote : atWord (some '\'') = true := by
  rw [atWord, map_some, isWord_quote]
  rfl

/-- a text that no call ends in -/
theorem clean_of_close {t : List Char} (ht : ')' ∉ t) (before : Option Char) : truncPattern.Clean before t [] := by
  induction t generalizing before with
  | nil => trivial
  | cons c t ih =>
    refine ⟨?_, ih (fun hmem => ht (mem_cons_of_mem c hmem)) _⟩
    by_contra hne
    obtain ⟨⟨n, d⟩, hsome⟩ := ne_none_iff_exists'.1 hne
    obtain ⟨-, m, hm, htext, -⟩ := trunc_eq_some.1 hsome
    rw [append_nil] at hm
    have hnil := htext.prefix_of_close (y := []) ht hm
    obtain ⟨n, w, inner, rfl, -⟩ := htext.shape
    have hlength := hnil.length_le
    simp only [length_append, length_cons, length_nil] at hlength
    omega

variable (quotes : Char → Option Char)

/-- the calls of a text whose first character stands at a place -/
def calls (place : Place) (s : List Char) : List (Piece Char Place (List Char × List Char)) :=
  truncPattern.pieces (placeStep quotes) place none 0 s

variable {quotes}

theorem calls_fresh {s : List Char} (h : Fresh before s) (place : Place) :
    truncPattern.pieces (placeStep quotes) place before 0 s = calls quotes place s :=
  Pattern.pieces_before (trunc_fresh h) place

theorem calls_quote (place : Place) (q t : List Char) : calls quotes place (q ++ '\'' :: t) =
    calls quotes place q ++
      .same '\'' :: calls quotes (placeStep quotes (q.foldl (placeStep quotes) place) '\'') t := by
  rw [calls, Pattern.pieces_append trunc_bounded (fun _ y _ _ => trunc_append fun m e u htext hm =>
    htext.prefix_of_quote hm) _ _ 0 (Nat.zero_le _),
    Pattern.pieces_same (trunc_of_not_isWord isWord_quote _ t), calls_fresh (.inl atWord_quote)]
  rfl

theorem calls_close (place : Place) (x t : List Char) (ht : ')' ∉ t) :
    calls quotes place (x ++ t) = calls quotes place x ++ t.map .same := by
  rw [calls, Pattern.pieces_append trunc_bounded (fun _ y _ _ => trunc_append fun m e u htext hm =>
    htext.prefix_of_close ht hm) _ _ 0 (Nat.zero_le _)]
  have hclean := Pattern.pieces_clean (placeStep quotes) (clean_of_close ht (lastOr none x))
    (x.foldl (placeStep quotes) place)
  rw [append_nil] at hclean
  rw [hclean, Pattern.pieces, append_nil]
  rfl

/-- a word is taken whole -/
theorem takeWhile_isWord {n t : List Char} (hn : ∀ c ∈ n, isWord c = true) (ht : Stops isWord t) :
    (n ++ t).takeWhile isWord = n := (takeWhile_eq hn ht).1

theorem TruncText.firstWord {m e u : List Char} (h : TruncText m e u) (t : List Char) :
    IsTruncName ((m ++ t).takeWhile isWord) := by
  obtain ⟨n, w, inner, rfl, hn, hw, -⟩ := h.shape
  rw [append_assoc, takeWhile_isWord hn.isWord]
  · exact hn
  · cases w with
    | nil => exact stops_cons (PyClasses.isWord_ascii '(' (by decide))
    | cons c w => exact stops_cons (PyClasses.isWord_space c (hw c mem_cons_self))

theorem clean_spaces {ws : List Char} (hws : ∀ c ∈ ws, isSpace c = true) (before : Option Char)
    (t : List Char) : truncPattern.Clean before ws t := by
  induction ws generalizing before with
  | nil => trivial
  | cons c ws ih =>
    exact ⟨trunc_of_not_isWord (PyClasses.isWord_space c (hws c mem_cons_self)) _ _,
      ih (fun d hd => hws d (mem_cons_of_mem c hd)) _⟩

/-- no call begins inside a word -/
theorem clean_word {c : Char} (hc : isWord c = true) {x : List Char} (hx : ∀ d ∈ x, isWord d = true)
    (t : List Char) : truncPattern.Clean (some c) x t := by
  induction x generalizing c with
  | nil => trivial
  | cons d x ih =>
    refine ⟨?_, ih (hx d mem_cons_self) fun d' hd' => hx d' (mem_cons_of_mem d hd')⟩
    simp only [truncPattern, Scanner.pattern, atWord, map_some, getD_some, hc]
    rfl

/-- no call begins in blanks with a unit behind them -/
theorem clean_unit {ws u t : List Char} (hws : ∀ c ∈ ws, isSpace c = true) (hu : u.map fold ∈ intervalUnits)
    (ht : Stops isWord t) (before : Option Char) : truncPattern.Clean before (ws ++ u) t := by
  refine Pattern.clean_append_iff.2 ⟨clean_spaces hws _ _, ?_⟩
  have hword := isWord_unit hu
  cases u with
  | nil => trivial
  | cons c u =>
    refine ⟨?_, clean_word (hword c mem_cons_self) (fun d hd => hword d (mem_cons_of_mem c hd)) t⟩
    by_contra hne
    obtain ⟨⟨k, d⟩, hsome⟩ := ne_none_iff_exists'.1 hne
    obtain ⟨-, m, ⟨rest, hrest⟩, htext, -⟩ := trunc_eq_some.1 hsome
    have hname := htext.firstWord rest
    rw [hrest, takeWhile_isWord hword ht] at hname
    exact hname.not_unit hu

theorem calls_unit (place : Place) {ws u t : List Char} (hws : ∀ c ∈ ws, isSpace c = true)
    (hu : u.map fold ∈ intervalUnits) (ht : Stops isWord t) : calls quotes place (ws ++ (u ++ t)) =
      (ws ++ u).map .same ++ calls quotes ((ws ++ u).foldl (placeStep quotes) place) t := by
  rw [calls, ← append_assoc, Pattern.pieces_clean _ (clean_unit hws hu ht none), calls_fresh (.inr ht)]

/-! ## Places -/

theorem placeStep_code {place : Place} (h : place.isCode = true) (c : Char) :
    placeStep quotes place c = codeStep quotes place c := by
  cases place with
  | code | dash | slash => rfl
  | quoted _ | line | block | star => cases h

/-- words and blanks of code -/
theorem place_code {place : Place} (hplace : place.isCode = true) {x : List Char} (hne : x ≠ [])
    (hx : ∀ c ∈ x, (isWord c || isSpace c) = true) : x.foldl (placeStep quotes) place = .code := by
  obtain ⟨c, x, rfl⟩ := exists_cons_of_ne_nil hne
  have hstep : ∀ {p : Place} {c : Char}, p.isCode = true → (isWord c || isSpace c) = true →
      placeStep quotes p c = .code := by
    intro p c hp hc
    rw [placeStep_code hp, codeStep, if_pos hc]
  rw [foldl_cons, hstep hplace (hx c mem_cons_self)]
  have hall : ∀ d ∈ x, (isWord d || isSpace d) = true := fun d hd => hx d (mem_cons_of_mem c hd)
  clear hne hx
  induction x with
  | nil => rfl
  | cons d x ih =>
    rw [foldl_cons, hstep rfl (hall d mem_cons_self)]
    exact ih fun d' hd' => hall d' (mem_cons_of_mem d hd')

/-- a literal goes on to its quotation mark -/
theorem place_quoted {x : List Char} (hx : '\'' ∉ x) : x.foldl (placeStep quotes) (.quoted '\'') = .quoted '\'' := by
  induction x with
  | nil => rfl
  | cons c x ih =>
    have hc : c ≠ '\'' := fun heq => hx (heq ▸ mem_cons_self)
    rw [foldl_cons, placeStep_quoted, if_neg hc]
    exact ih fun hmem => hx (mem_cons_of_mem c hmem)

theorem place_open : placeStep quotes .code '\'' = .quoted '\'' := by
  rw [placeStep_code rfl, codeStep, isWord_quote, isSpace_quote]
  rfl

theorem place_shut : placeStep quotes (.quoted '\'') '\'' = .code := by
  rw [placeStep_quoted, if_pos rfl]

/-! ## Literals and their segments -/

/-- `INTERVAL\s+` -/
def isHead (y : List Char) : Bool :=
  (y.take 8).map fold = "interval".toList && !(y.drop 8).isEmpty && (y.drop 8).all isSpace

/-- a segment before the `INTERVAL\s+` that it ends in, and this -/
def cutHead : Option Char → List Char → Option (List Char × List Char)
  | _, [] => none
  | before, c :: cs =>
    if atWord before && isHead (c :: cs) then some ([], c :: cs)
    else (cutHead (some c) cs).map fun parts => (c :: parts.1, parts.2)

theorem isHead_iff {y : List Char} : isHead y = true ↔ IsHead y := by
  rw [isHead, Bool.and_eq_true, Bool.and_eq_true, decide_eq_true_eq, Bool.not_eq_true', isEmpty_eq_false_iff,
    List.all_eq_true]
  constructor
  · rintro ⟨⟨hk, hne⟩, hspace⟩
    exact ⟨y.take 8, y.drop 8, (take_append_drop 8 y).symm, hk, hne, hspace⟩
  · rintro ⟨k, ws, rfl, hk, hne, hspace⟩
    have hlength : k.length = 8 := by
      have h := congrArg List.length hk
      rwa [length_map] at h
    rw [← hlength, take_left, drop_left]
    exact ⟨⟨hk, hne⟩, hspace⟩

theorem IsHead.chars {h : List Char} (hh : IsHead h) : ∀ c ∈ h, (isWord c || isSpace c) = true := by
  obtain ⟨k, ws, rfl, hk, -, hspace⟩ := hh
  intro c hc
  rw [Bool.or_eq_true]
  rcases mem_append.1 hc with hc | hc
  · exact .inl (isWord_of_fold (by decide) hk c hc)
  · exact .inr (hspace c hc)

theorem IsHead.not_special {h : List Char} (hh : IsHead h) : ∀ c ∈ h, special c = false := by
  intro c hc
  have hchar := hh.chars c hc
  rw [Bool.or_eq_true] at hchar
  rcases hchar with hchar | hchar
  · exact not_special_of_isWord hchar
  · exact not_special_of_isSpace hchar

theorem IsHead.quote_notMem {h : List Char} (hh : IsHead h) : '\'' ∉ h := fun hmem =>
  Bool.false_ne_true ((hh.not_special _ hmem).symm.trans rfl)

theorem IsHead.ne_nil {h : List Char} (hh : IsHead h) : h ≠ [] := by
  obtain ⟨k, ws, rfl, -, hne, -⟩ := hh
  exact append_ne_nil_of_right_ne_nil k hne

theorem cutHead_eq_some {q x h : List Char} (hcut : cutHead before q = some (x, h)) :
    q = x ++ h ∧ IsHead h ∧ atWord (lastOr before x) = true := by
  induction q generalizing before x with
  | nil => cases hcut
  | cons c q ih =>
    rw [cutHead] at hcut
    split_ifs at hcut with hhere
    · cases hcut
      rw [Bool.and_eq_true] at hhere
      exact ⟨rfl, isHead_iff.1 hhere.2, by rw [lastOr_nil]; exact hhere.1⟩
    · obtain ⟨⟨x', h'⟩, hrest, hparts⟩ := map_eq_some_iff.1 hcut
      cases hparts
      obtain ⟨rfl, hh, hstart⟩ := ih hrest
      exact ⟨rfl, hh, by rw [lastOr_cons]; exact hstart⟩

/-- the literal that begins in a segment -/
theorem interval_quote {y t : List Char} (hy : '\'' ∉ y) {n : ℕ} {d : List Char × List Char} :
    intervalPattern before (y ++ '\'' :: t) = some (n, d) ↔ atWord before = true ∧ IsHead y ∧
      ∃ rest, literalPart t = some (d, rest) ∧ n = (y ++ '\'' :: t).length - rest.length := by
  rw [pattern_eq_some]
  refine and_congr_right fun _ => ?_
  constructor
  · rintro ⟨rest, hliteral, hn⟩
    obtain ⟨y', t', heq, hhead, hpart⟩ := intervalLiteral_eq_some.1 hliteral
    obtain ⟨rfl, rfl⟩ := append_quote_inj hy hhead.quote_notMem heq
    exact ⟨hhead, rest, hpart, hn⟩
  · rintro ⟨hhead, rest, hpart, hn⟩
    exact ⟨rest, intervalLiteral_eq_some.2 ⟨y, t, rfl, hhead, hpart⟩, hn⟩

theorem interval_of_not_mem {q : List Char} (hq : '\'' ∉ q) : intervalPattern before q = none := by
  by_contra hne
  obtain ⟨⟨n, d⟩, hsome⟩ := ne_none_iff_exists'.1 hne
  obtain ⟨-, rest, hliteral, -⟩ := pattern_eq_some.1 hsome
  obtain ⟨y, t, rfl, -⟩ := intervalLiteral_eq_some.1 hliteral
  exact hq (mem_append_right _ mem_cons_self)

/-- no literal begins before the head that a segment is cut at -/
theorem clean_cutHead {q x h : List Char} (hcut : cutHead before q = some (x, h)) (hq : '\'' ∉ q)
    (t : List Char) : intervalPattern.Clean before x (h ++ '\'' :: t) := by
  induction q generalizing before x with
  | nil => cases hcut
  | cons c q ih =>
    rw [cutHead] at hcut
    split_ifs at hcut with hhere
    · cases hcut
      trivial
    · obtain ⟨⟨x', h'⟩, hrest, hparts⟩ := map_eq_some_iff.1 hcut
      cases hparts
      refine ⟨?_, ih hrest fun hmem => hq (mem_cons_of_mem c hmem)⟩
      obtain ⟨rfl, -⟩ := cutHead_eq_some hrest
      by_contra hne
      obtain ⟨⟨n, d⟩, hsome⟩ := ne_none_iff_exists'.1 hne
      rw [cons_append, ← append_assoc, ← cons_append] at hsome
      obtain ⟨hstart, hhead, -⟩ := (interval_quote hq).1 hsome
      exact hhere (by rw [hstart, isHead_iff.2 hhead]; rfl)

/-- a segment that no literal begins in -/
theorem clean_plain {q t : List Char} (hq : '\'' ∉ q)
    (h : cutHead before q = none ∨ literalPart t = none) : intervalPattern.Clean before q ('\'' :: t) := by
  induction q generalizing before with
  | nil => trivial
  | cons c q ih =>
    have hnone : cutHead (some c) q = none ∨ literalPart t = none := by
      refine h.imp_left fun hcut => ?_
      rw [cutHead] at hcut
      split_ifs at hcut with hhere
      exact map_eq_none_iff.1 hcut
    refine ⟨?_, ih (fun hmem => hq (mem_cons_of_mem c hmem)) hnone⟩
    by_contra hne
    obtain ⟨⟨n, d⟩, hsome⟩ := ne_none_iff_exists'.1 hne
    obtain ⟨hstart, hhead, rest, hpart, -⟩ := (interval_quote hq).1 hsome
    rcases h with hcut | hpart'
    · rw [cutHead, hstart, isHead_iff.2 hhead] at hcut
      cases hcut
    · rw [hpart] at hpart'
      cases hpart'

theorem interval_fresh {s : List Char} (h : Fresh before s) : intervalPattern before s = intervalPattern none s := by
  refine pattern_fresh (fun cs r hr => ?_) h
  obtain ⟨y, t, rfl, ⟨k, ws, rfl, hk, -⟩, -⟩ := intervalLiteral_eq_some.1 hr
  cases k with
  | nil => cases hk
  | cons c k => exact ⟨c, _, rfl, isWord_of_fold (by decide) hk c mem_cons_self⟩

variable (quotes) in
/-- the literals of a text whose first character stands at a place -/
def literals (place : Place) (s : List Char) : List (Piece Char Place (List Char × List Char)) :=
  intervalPattern.pieces (placeStep quotes) place none 0 s

theorem literals_last (place : Place) {q : List Char} (hq : '\'' ∉ q) : literals quotes place q = q.map .same := by
  have hclean : ∀ {before : Option Char} {x : List Char}, '\'' ∉ x → intervalPattern.Clean before x [] := by
    intro before x
    induction x generalizing before with
    | nil => exact fun _ => trivial
    | cons c x ih =>
      exact fun hx => ⟨interval_of_not_mem (by rwa [append_nil]), ih fun hmem => hx (mem_cons_of_mem c hmem)⟩
  have h := Pattern.pieces_clean (placeStep quotes) (@hclean none q hq) place
  rwa [append_nil, Pattern.pieces, append_nil] at h

theorem literals_plain (place : Place) {q t : List Char} (hq : '\'' ∉ q)
    (h : cutHead none q = none ∨ literalPart t = none) : literals quotes place (q ++ '\'' :: t) =
      (q ++ ['\'']).map .same ++ literals quotes ((q ++ ['\'']).foldl (placeStep quotes) place) t := by
  have hquote : intervalPattern (lastOr none q) ('\'' :: t) = none := by
    by_contra hne
    obtain ⟨⟨n, d⟩, hsome⟩ := ne_none_iff_exists'.1 hne
    have hhead := ((interval_quote (y := []) not_mem_nil).1 hsome).2.1
    exact hhead.ne_nil rfl
  have hclean : intervalPattern.Clean none (q ++ ['\'']) t :=
    Pattern.clean_append_iff.2 ⟨clean_plain hq h, hquote, trivial⟩
  have hpieces := Pattern.pieces_clean (placeStep quotes) hclean place
  rw [append_assoc, singleton_append] at hpieces
  rw [literals, hpieces, literals, Pattern.pieces_before (interval_fresh (.inl ?_))]
  rw [lastOr, getLast?_concat]
  exact atWord_quote

/-- a literal: the segment it begins in, cut before its head, and the text behind the quotation mark -/
structure LiteralAt (q t x h body ws u rest : List Char) : Prop where
  segment : q = x ++ h
  text : t = body ++ '\'' :: (ws ++ (u ++ rest))
  head : IsHead h
  start : atWord (lastOr none x) = true
  cut : cutHead none q = some (x, h)
  part : literalPart t = some ((body, u), rest)
  body_ne : body ≠ []
  body_quote : '\'' ∉ body
  blanks_ne : ws ≠ []
  blanks : ∀ c ∈ ws, isSpace c = true
  unit : u.map fold ∈ intervalUnits
  stops : Stops isWord rest

theorem literalAt {q t x h body u rest : List Char} (hcut : cutHead none q = some (x, h))
    (hpart : literalPart t = some ((body, u), rest)) : ∃ ws, LiteralAt q t x h body ws u rest := by
  obtain ⟨hq, hhead, hstart⟩ := cutHead_eq_some hcut
  obtain ⟨t', rfl, hne, hquote, hunit⟩ := literalPart_eq_some.1 hpart
  obtain ⟨ws, rfl, hws, hspace, hmem, hstop⟩ := unitPart_eq_some.1 hunit
  exact ⟨ws, hq, rfl, hhead, hstart, hcut, hpart, hne, hquote, hws, hspace, hmem, hstop⟩

theorem literals_literal (place : Place) {q t x h body ws u rest : List Char} (hq : '\'' ∉ q)
    (hL : LiteralAt q t x h body ws u rest) : literals quotes place (q ++ '\'' :: t) =
      x.map .same ++ .found (x.foldl (placeStep quotes) place) (h ++ '\'' :: (body ++ '\'' :: (ws ++ u))) (body, u) ::
        literals quotes ((q ++ '\'' :: (body ++ '\'' :: (ws ++ u))).foldl (placeStep quotes) place) rest := by
  have hh : '\'' ∉ h := hL.head.quote_notMem
  have hmatch : intervalPattern (lastOr none x) (h ++ '\'' :: t) =
      some ((h ++ '\'' :: (body ++ '\'' :: (ws ++ u))).length, (body, u)) := by
    refine (interval_quote hh).2 ⟨hL.start, hL.head, rest, hL.part, ?_⟩
    rw [hL.text]
    simp only [length_append, length_cons]
    omega
  have htext : h ++ '\'' :: t = (h ++ '\'' :: (body ++ '\'' :: (ws ++ u))) ++ rest := by
    rw [hL.text]
    simp only [append_assoc, cons_append]
  have hclean := Pattern.pieces_clean (placeStep quotes) (clean_cutHead hL.cut hq t) place
  rw [← append_assoc, ← hL.segment] at hclean
  rw [htext] at hmatch hclean
  rw [literals, hclean, Pattern.pieces_match (append_ne_nil_of_left_ne_nil hL.head.ne_nil _) hmatch, literals,
    Pattern.pieces_before (interval_fresh (.inr hL.stops)), ← foldl_append, hL.segment, append_assoc]

/-- **Walking over the literals.** A text is one segment, or it has a segment in which no literal begins or one in which
one does; the rest behind this is shorter. -/
theorem literal_induction {motive : List Char → Prop} (last : ∀ q, '\'' ∉ q → motive q)
    (plain : ∀ q t, '\'' ∉ q → (cutHead none q = none ∨ literalPart t = none) → motive t → motive (q ++ '\'' :: t))
    (literal : ∀ q t x h body ws u rest, '\'' ∉ q → LiteralAt q t x h body ws u rest → motive rest →
      motive (q ++ '\'' :: t)) (s : List Char) : motive s := by
  induction hn : s.length using Nat.strong_induction_on generalizing s with
  | _ n ih =>
    by_cases hmem : '\'' ∈ s
    · obtain ⟨q, t, rfl, hq⟩ := eq_append_cons_of_mem hmem
      rw [length_append, length_cons] at hn
      by_cases hnone : cutHead none q = none ∨ literalPart t = none
      · exact plain q t hq hnone (ih _ (by omega) t rfl)
      · rw [not_or] at hnone
        obtain ⟨⟨x, h⟩, hcut⟩ := ne_none_iff_exists'.1 hnone.1
        obtain ⟨⟨⟨body, u⟩, rest⟩, hpart⟩ := ne_none_iff_exists'.1 hnone.2
        obtain ⟨ws, hL⟩ := literalAt hcut hpart
        refine literal q t x h body ws u rest hq hL (ih rest.length ?_ rest rfl)
        have hlength := congrArg List.length hL.text
        simp only [length_append, length_cons] at hlength
        omega
    · exact last s hmem

/-! ## What the passes make of a text -/

/-- the text with all its calls rewritten -/
def truncated (s : List Char) : List Char := truncPattern.sub replaceTrunc s

/-- the text with all its literals rewritten -/
def moved (s : List Char) : List Char := intervalPattern.sub replaceInterval s

variable (quotes) (isUnit : List Char → Bool)

/-- the condition on calls -/
def callOk (place : Place) (groups : List Char × List Char) : Bool := place.isCode && isUnit groups.2

/-- the condition on literals -/
def literalOk (place : Place) (_ : List Char × List Char) : Bool := place.isCode && true

/-- the text with the calls rewritten that stand in code with their unit behind -/
def keptCalls (place : Place) (s : List Char) : List Char :=
  (calls quotes place s).flatMap (Piece.replaceIf (callOk isUnit) replaceTrunc)

/-- the text with the literals rewritten that stand in code -/
def keptLiterals (place : Place) (s : List Char) : List Char :=
  (literals quotes place s).flatMap (Piece.replaceIf literalOk replaceInterval)

/-- every call stands in code and has a date unit for its second argument -/
def CallsOk (place : Place) (s : List Char) : Prop := ∀ p ∈ calls quotes place s, p.All (callOk isUnit)

/-- every literal stands in code -/
def LiteralsOk (place : Place) (s : List Char) : Prop := ∀ p ∈ literals quotes place s, p.All literalOk

variable {quotes isUnit}

variable (quotes) in
theorem truncated_eq (place : Place) (s : List Char) :
    truncated s = (calls quotes place s).flatMap (Piece.replace replaceTrunc) := Pattern.replace_pieces _ _ _ _ _ _ _

variable (quotes) in
theorem moved_eq (place : Place) (s : List Char) :
    moved s = (literals quotes place s).flatMap (Piece.replace replaceInterval) := Pattern.replace_pieces _ _ _ _ _ _ _

theorem truncated_quote (q t : List Char) : truncated (q ++ '\'' :: t) = truncated q ++ '\'' :: truncated t := by
  rw [truncated_eq (fun _ => none) .code, calls_quote, flatMap_append, flatMap_cons, ← truncated_eq,
    ← truncated_eq]
  rfl

theorem truncated_close (x : List Char) {t : List Char} (ht : ')' ∉ t) : truncated (x ++ t) = truncated x ++ t := by
  rw [truncated_eq (fun _ => none) .code, calls_close _ _ _ ht, flatMap_append, Pattern.flatMap_replace_same,
    ← truncated_eq]

theorem keptCalls_quote (place : Place) (q t : List Char) : keptCalls quotes isUnit place (q ++ '\'' :: t) =
    keptCalls quotes isUnit place q ++ '\'' ::
      keptCalls quotes isUnit (placeStep quotes (q.foldl (placeStep quotes) place) '\'') t := by
  rw [keptCalls, calls_quote, flatMap_append, flatMap_cons]
  rfl

theorem keptCalls_close (place : Place) (x : List Char) {t : List Char} (ht : ')' ∉ t) :
    keptCalls quotes isUnit place (x ++ t) = keptCalls quotes isUnit place x ++ t := by
  rw [keptCalls, calls_close _ _ _ ht, flatMap_append, Pattern.flatMap_replaceIf_same, keptCalls]

theorem callsOk_quote (place : Place) (q t : List Char) : CallsOk quotes isUnit place (q ++ '\'' :: t) ↔
    CallsOk quotes isUnit place q ∧
      CallsOk quotes isUnit (placeStep quotes (q.foldl (placeStep quotes) place) '\'') t := by
  rw [CallsOk, calls_quote, forall_mem_append, forall_mem_cons]
  exact and_congr_right fun _ => and_iff_right trivial

theorem callsOk_close (place : Place) (x : List Char) {t : List Char} (ht : ')' ∉ t) :
    CallsOk quotes isUnit place (x ++ t) ↔ CallsOk quotes isUnit place x := by
  rw [CallsOk, calls_close _ _ _ ht, forall_mem_append]
  exact and_iff_left (Pattern.all_same _ _)

theorem callsOk_unit (place : Place) {ws u t : List Char} (hws : ∀ c ∈ ws, isSpace c = true)
    (hu : u.map fold ∈ intervalUnits) (ht : Stops isWord t) : CallsOk quotes isUnit place (ws ++ (u ++ t)) ↔
      CallsOk quotes isUnit ((ws ++ u).foldl (placeStep quotes) place) t := by
  rw [CallsOk, calls_unit _ hws hu ht, forall_mem_append]
  exact and_iff_right (Pattern.all_same _ _)

/-- **Calls rewritten.** A call that is rewritten differs from what it was in its first quotation mark. -/
theorem calls_iff (place : Place) (s t t' : List Char) : truncated s ++ t = keptCalls quotes isUnit place s ++ t' ↔
    CallsOk quotes isUnit place s ∧ t = t' := by
  rw [truncated_eq quotes place, keptCalls, CallsOk]
  refine Pattern.replace_eq_iff (fun place text d hmem t t' heq => ?_) t t'
  obtain ⟨before, cs, n, hfound, rfl⟩ := Pattern.found_of_mem hmem
  obtain ⟨-, m, hm, htext, rfl⟩ := trunc_eq_some.1 hfound
  rw [prefix_iff_eq_take.1 hm |>.symm] at heq
  obtain ⟨n, w, inner, hparts, hn, -, -, hinner⟩ := htext.shape
  have hlength : (truncStart ++ ['\'']).length ≤ m.length := by
    have htwelve : (truncStart ++ ['\'']).length = 12 := by decide
    have hname := hn.length
    rw [htwelve, hparts]
    simp only [length_append, length_cons]
    omega
  have hstart : truncStart ++ ['\''] <+: m ++ t' := by
    rw [← heq, replaceTrunc_eq, append_assoc, cons_append]
    exact ⟨_, append_assoc truncStart ['\''] _⟩
  have hpre := prefix_of_prefix_length_le hstart (prefix_append m t') hlength
  exact htext.quote_notMem (hpre.subset (mem_append_right _ mem_cons_self))

theorem quote_notMem {x : List Char} (hx : ∀ c ∈ x, (isWord c || isSpace c) = true) : '\'' ∉ x := by
  intro hmem
  have h := hx _ hmem
  rw [isWord_quote, isSpace_quote] at h
  cases h

theorem close_notMem {x : List Char} (hx : ∀ c ∈ x, (isWord c || isSpace c) = true) : ')' ∉ x := by
  intro hmem
  have h := hx _ hmem
  rw [PyClasses.isWord_ascii ')' (by decide), isSpace_close] at h
  cases h

theorem interval_chars : ∀ c ∈ intervalStart, (isWord c || isSpace c) = true := by
  have hall : intervalStart.all (fun c => (c.isAlphanum && decide (c.toNat < 128)) || c = ' ') = true := by decide
  intro c hc
  have hchar := all_eq_true.1 hall c hc
  rw [Bool.or_eq_true, Bool.and_eq_true, decide_eq_true_eq, decide_eq_true_eq] at hchar
  rcases hchar with ⟨halpha, hascii⟩ | rfl
  · rw [PyClasses.isWord_ascii c hascii, halpha]
    rfl
  · rw [isSpace_blank, Bool.or_true]

theorem unit_chars {u : List Char} (h : u.map fold ∈ intervalUnits) :
    ∀ c ∈ ' ' :: u, (isWord c || isSpace c) = true := by
  intro c hc
  rcases mem_cons.1 hc with rfl | hc
  · rw [isSpace_blank, Bool.or_true]
  · rw [isWord_unit h c hc, Bool.true_or]

theorem moved_last {q : List Char} (hq : '\'' ∉ q) : moved q = q := by
  rw [moved_eq (fun _ => none) .code, literals_last _ hq, Pattern.flatMap_replace_same]

theorem moved_plain {q t : List Char} (hq : '\'' ∉ q) (h : cutHead none q = none ∨ literalPart t = none) :
    moved (q ++ '\'' :: t) = q ++ '\'' :: moved t := by
  rw [moved_eq (fun _ => none) .code, literals_plain _ hq h, flatMap_append, Pattern.flatMap_replace_same,
    ← moved_eq, append_assoc, singleton_append]

/-- a literal with its unit moved into the quotation marks -/
theorem moved_literal {q t x h body ws u rest : List Char} (hq : '\'' ∉ q) (hL : LiteralAt q t x h body ws u rest) :
    moved (q ++ '\'' :: t) =
      (x ++ intervalStart) ++ '\'' :: ((body ++ ' ' :: u) ++ '\'' :: moved rest) := by
  rw [moved_eq (fun _ => none) .code, literals_literal _ hq hL, flatMap_append, Pattern.flatMap_replace_same,
    flatMap_cons, ← moved_eq, Piece.replace, replaceInterval_eq]
  simp only [append_assoc, cons_append, nil_append]

theorem keptLiterals_plain (place : Place) {q t : List Char} (hq : '\'' ∉ q)
    (h : cutHead none q = none ∨ literalPart t = none) : keptLiterals quotes place (q ++ '\'' :: t) =
      q ++ '\'' :: keptLiterals quotes (placeStep quotes (q.foldl (placeStep quotes) place) '\'') t := by
  rw [keptLiterals, literals_plain _ hq h, flatMap_append, Pattern.flatMap_replaceIf_same, append_assoc,
    singleton_append, foldl_append]
  rfl

theorem literalsOk_plain (place : Place) {q t : List Char} (hq : '\'' ∉ q)
    (h : cutHead none q = none ∨ literalPart t = none) : LiteralsOk quotes place (q ++ '\'' :: t) ↔
      LiteralsOk quotes (placeStep quotes (q.foldl (placeStep quotes) place) '\'') t := by
  rw [LiteralsOk, literals_plain _ hq h, forall_mem_append, foldl_append]
  exact and_iff_right (Pattern.all_same _ _)

theorem place_unit {q t x h body ws u rest : List Char} (hL : LiteralAt q t x h body ws u rest) :
    (ws ++ u).foldl (placeStep quotes) .code = .code := by
  refine place_code rfl (append_ne_nil_of_left_ne_nil hL.blanks_ne u) fun c hc => ?_
  rcases mem_append.1 hc with hc | hc
  · rw [hL.blanks c hc, Bool.or_true]
  · rw [isWord_unit hL.unit c hc, Bool.true_or]

theorem place_literal {place : Place} {q t x h body ws u rest : List Char} (hL : LiteralAt q t x h body ws u rest)
    (hcode : (x.foldl (placeStep quotes) place).isCode = true) :
    q.foldl (placeStep quotes) place = .code ∧ (x ++ intervalStart).foldl (placeStep quotes) place = .code ∧
      (q ++ '\'' :: (body ++ '\'' :: (ws ++ u))).foldl (placeStep quotes) place = .code := by
  have hq : q.foldl (placeStep quotes) place = .code := by
    rw [hL.segment, foldl_append]
    exact place_code hcode hL.head.ne_nil hL.head.chars
  refine ⟨hq, ?_, ?_⟩
  · rw [foldl_append]
    exact place_code hcode (by decide) interval_chars
  · rw [foldl_append, hq, foldl_cons, place_open, foldl_append, place_quoted hL.body_quote,
      foldl_cons, place_shut]
    exact place_unit hL

/-- the text with a literal rewritten, and its calls -/
theorem truncated_literal {x body u : List Char} (hu : u.map fold ∈ intervalUnits) (t : List Char) :
    truncated ((x ++ intervalStart) ++ '\'' :: ((body ++ ' ' :: u) ++ '\'' :: t)) =
      truncated x ++ (intervalStart ++ '\'' :: (truncated body ++ (' ' :: u ++ '\'' :: truncated t))) := by
  rw [truncated_quote, truncated_quote, truncated_close _ (close_notMem interval_chars),
    truncated_close _ (close_notMem (unit_chars hu))]
  simp only [append_assoc]

/-- **What changes.** Both passes rewrite literals and calls in code only, with units for second arguments, exactly when
all literals and calls of the text are of this kind. -/
theorem changes_iff (place : Place) (s : List Char) :
    truncated (moved s) = keptCalls quotes isUnit place (keptLiterals quotes place s) ↔
      LiteralsOk quotes place s ∧ CallsOk quotes isUnit place s := by
  induction s using literal_induction generalizing place with
  | last q hq =>
    have h : truncated q ++ [] = keptCalls quotes isUnit place q ++ [] ↔ _ := calls_iff place q [] []
    rw [append_nil, append_nil, and_iff_left rfl] at h
    rw [moved_last hq, keptLiterals, LiteralsOk, literals_last _ hq, Pattern.flatMap_replaceIf_same, h]
    exact (and_iff_right (Pattern.all_same _ _)).symm
  | plain q t hq hnone ih =>
    rw [moved_plain hq hnone, keptLiterals_plain _ hq hnone, truncated_quote, keptCalls_quote, calls_iff,
      cons_inj_right, ih, literalsOk_plain _ hq hnone, callsOk_quote, and_left_comm]
  | literal q t x h body ws u rest hq hL ih =>
    have hpieces := @literals_literal _ quotes place _ _ _ _ _ _ _ _ hq hL
    have hcalls : CallsOk quotes isUnit place (q ++ '\'' :: t) ↔ CallsOk quotes isUnit place x ∧
        CallsOk quotes isUnit (placeStep quotes (q.foldl (placeStep quotes) place) '\'') t := by
      rw [callsOk_quote, hL.segment, callsOk_close _ _ (close_notMem hL.head.chars)]
    rw [moved_literal hq hL, truncated_literal hL.unit, keptLiterals, LiteralsOk, hpieces, flatMap_append,
      Pattern.flatMap_replaceIf_same, flatMap_cons, forall_mem_append, forall_mem_cons,
      and_iff_right (Pattern.all_same _ _), hcalls]
    by_cases hcode : (x.foldl (placeStep quotes) place).isCode = true
    · obtain ⟨hplace, hstart, hend⟩ := place_literal hL hcode
      have hok : literalOk (x.foldl (placeStep quotes) place) (body, u) = true := by rw [literalOk, hcode]; rfl
      have hbody : '\'' ∉ body ++ ' ' :: u := by
        intro hmem
        rcases mem_append.1 hmem with hmem | hmem
        · exact hL.body_quote hmem
        · exact quote_notMem (unit_chars hL.unit) hmem
      have htext : ∀ y : List Char, x ++ (intervalStart ++ '\'' :: (body ++ ' ' :: u ++ ['\'']) ++ y) =
          (x ++ intervalStart) ++ '\'' :: ((body ++ ' ' :: u) ++ '\'' :: y) := by
        intro y
        simp only [append_assoc, cons_append, nil_append]
      rw [Piece.replaceIf, if_pos hok, replaceInterval_eq, htext, keptCalls_quote, hstart, place_open,
        keptCalls_close _ _ (close_notMem interval_chars), keptCalls_quote, place_quoted hbody, place_shut,
        keptCalls_close _ _ (close_notMem (unit_chars hL.unit)), hend, hplace, place_open, hL.text, callsOk_quote,
        place_quoted hL.body_quote, place_shut, callsOk_unit _ hL.blanks hL.unit hL.stops,
        place_unit hL, append_assoc, calls_iff, append_cancel_left_eq, cons_inj_right,
        append_assoc, calls_iff, append_cancel_left_eq, cons_inj_right]
      have hrest := ih .code
      rw [keptLiterals, LiteralsOk] at hrest
      rw [hrest]
      constructor
      · rintro ⟨hx, hinside, hliterals, hbehind⟩
        exact ⟨⟨hok, hliterals⟩, hx, hinside, hbehind⟩
      · rintro ⟨⟨-, hliterals⟩, hx, hinside, hbehind⟩
        exact ⟨hx, hinside, hliterals, hbehind⟩
    · have hok : ¬literalOk (x.foldl (placeStep quotes) place) (body, u) = true := by
        rw [literalOk, Bool.and_true]
        exact hcode
      refine iff_of_false ?_ fun h => hok h.1.1
      have htext : ∀ y : List Char, x ++ (h ++ '\'' :: (body ++ '\'' :: (ws ++ u)) ++ y) =
          (x ++ h) ++ '\'' :: (body ++ '\'' :: (ws ++ u ++ y)) := by
        intro y
        simp only [append_assoc, cons_append]
      rw [Piece.replaceIf, if_neg hok, htext, keptCalls_quote, keptCalls_close _ _ (close_notMem hL.head.chars),
        append_assoc, calls_iff]
      rintro ⟨-, heq⟩
      obtain ⟨-, hbehind⟩ := append_quote_inj (quote_notMem interval_chars) hL.head.quote_notMem heq
      rw [keptCalls_quote, calls_iff] at hbehind
      exact absurd (List.cons.inj hbehind.2).1 (by decide)

end Results

end Langbridge.Federation.PortableSql
