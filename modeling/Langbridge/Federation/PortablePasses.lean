/-
Portable SQL: when a second pass changes nothing. After a pass no truncation call is left, and none comes up again; an
`INTERVAL` literal may be left where another unit stands behind the one that was moved.

Main results:
- `portable_iff`: both that and what changes, for every text.
- `swapped_arguments`, `second_unit`: a call with its unit first, and a literal with two units.
-/
import Langbridge.Federation.PortableText

namespace Langbridge.Federation.PortableSql

open Core List PyText Option

/-! ## The condition -/

section Passes

variable [PyRegex]

/-- a segment holds a truncation call -/
def hasCall (q : List Char) : Bool := (truncPattern.pieces (fun _ _ => ()) () none 0 q).any Piece.isFound

/-- a text begins with blanks and a unit -/
def opensUnit (t : List Char) : Bool := (unitPart t).isSome

/-- a segment ends in `INTERVAL` and blanks -/
def endsHead (q : List Char) : Bool := (cutHead none q).isSome

/-- No literal without a call in it has a second unit behind its own; and none is blank where the segment that it
begins in has no call and follows one that ends in `INTERVAL` itself (`opened`). The arguments are a segment and those
behind. -/
def Settled (opened : Bool) (q : List Char) : List (List Char) → Bool
  | body :: behind :: rest =>
    match cutHead none q, unitPart behind with
    | some (x, _), some (_, behind') =>
      if body = [] then Settled true body (behind :: rest)
      else !(opened && !hasCall x && body.all isSpace) && !(!hasCall body && opensUnit behind') &&
        Settled false behind' rest
    | head, _ => Settled head.isSome body (behind :: rest)
  | _ => true

/-- the condition on a text, which quotation marks cut into segments -/
def settled (s : List Char) : Bool :=
  match s.splitOn '\'' with
  | q :: rest => Settled false q rest
  | [] => true

end Passes

/-! ## Segments -/

/-- the segments of a text -/
abbrev segments (s : List Char) : List (List Char) := s.splitOn '\''

variable {q : List Char}

theorem segments_last (hq : '\'' ∉ q) : segments q = [q] := splitOn_eq_singleton hq

theorem segments_append (a b : List Char) : segments (a ++ '\'' :: b) = segments a ++ segments b :=
  splitOn_append_cons_of_beq a b (beq_self_eq_true _)

theorem segments_quote (hq : '\'' ∉ q) (t : List Char) : segments (q ++ '\'' :: t) = q :: segments t := by
  rw [segments_append, segments_last hq, singleton_append]

variable {w : List Char}

theorem quote_notMem_of_special (h : ∀ c ∈ w, special c = false) : '\'' ∉ w := fun hmem =>
  Bool.false_ne_true ((h _ hmem).symm.trans rfl)

theorem close_notMem_of_special (h : ∀ c ∈ w, special c = false) : ')' ∉ w := fun hmem =>
  Bool.false_ne_true ((h _ hmem).symm.trans rfl)

/-- walking over the segments of a text -/
theorem segment_induction {motive : List Char → Prop} (last : ∀ q, '\'' ∉ q → motive q)
    (next : ∀ q t, '\'' ∉ q → motive t → motive (q ++ '\'' :: t)) (s : List Char) : motive s := by
  induction hn : s.length using Nat.strong_induction_on generalizing s with
  | _ n ih =>
    by_cases hmem : '\'' ∈ s
    · obtain ⟨q, t, rfl, hq⟩ := eq_append_cons_of_mem hmem
      rw [length_append, length_cons] at hn
      exact next q t hq (ih _ (by omega) t rfl)
    · exact last s hmem

/-- the first segment of a text, and what the text begins with -/
theorem segments_cons (t : List Char) : ∃ q qs, segments t = q :: qs ∧ '\'' ∉ q ∧
    (t = q ∧ qs = [] ∨ ∃ t', t = q ++ '\'' :: t' ∧ qs = segments t') := by
  induction t using segment_induction with
  | last q hq => exact ⟨q, [], segments_last hq, hq, .inl ⟨rfl, rfl⟩⟩
  | next q t hq _ => exact ⟨q, segments t, segments_quote hq t, hq, .inr ⟨t, rfl, rfl⟩⟩

theorem segments_notMem (s : List Char) : ∀ q ∈ segments s, '\'' ∉ q := by
  induction s using segment_induction with
  | last q hq =>
    rw [segments_last hq]
    exact forall_mem_singleton.2 hq
  | next q t hq ih =>
    rw [segments_quote hq]
    exact forall_mem_cons.2 ⟨hq, ih⟩

variable {a t : List Char} {qs : List (List Char)}

theorem segments_append_left (ha : '\'' ∉ a) (h : segments t = q :: qs) : segments (a ++ t) = (a ++ q) :: qs := by
  obtain ⟨q', qs', hsegments, hquote, ⟨rfl, hnil⟩ | ⟨t', rfl, hrest⟩⟩ := segments_cons t
  · rw [h, List.cons.injEq] at hsegments
    obtain ⟨rfl, rfl⟩ := hsegments
    rw [segments_last fun hmem => (mem_append.1 hmem).elim ha hquote, hnil]
  · rw [h, List.cons.injEq] at hsegments
    obtain ⟨rfl, rfl⟩ := hsegments
    rw [← append_assoc, segments_quote fun hmem => (mem_append.1 hmem).elim ha hquote, hrest]

section Passes

variable [PyRegex]

open PyRegex

theorem opensUnit_iff : opensUnit t = true ↔ ∃ ws u rest, t = ws ++ (u ++ rest) ∧ ws ≠ [] ∧
    (∀ c ∈ ws, isSpace c = true) ∧ u.map fold ∈ intervalUnits ∧ Stops isWord rest := by
  rw [opensUnit, isSome_iff_exists]
  constructor
  · rintro ⟨⟨u, rest⟩, h⟩
    obtain ⟨ws, ht, hne, hws, hu, hstop⟩ := unitPart_eq_some.1 h
    exact ⟨ws, u, rest, ht, hne, hws, hu, hstop⟩
  · rintro ⟨ws, u, rest, ht, hne, hws, hu, hstop⟩
    exact ⟨(u, rest), unitPart_eq_some.2 ⟨ws, ht, hne, hws, hu, hstop⟩⟩

/-- a text that goes on behind a quotation mark -/
theorem stops_quote {r : List Char} (t : List Char) : Stops isWord (r ++ '\'' :: t) ↔ Stops isWord r := by
  cases r with
  | nil => exact iff_of_true (stops_cons isWord_quote) fun c hc => nomatch hc
  | cons c r => exact Iff.rfl

/-- blanks and a unit stand in one segment -/
theorem opensUnit_quote (q t : List Char) : opensUnit (q ++ '\'' :: t) = opensUnit q := by
  rw [Bool.eq_iff_iff, opensUnit_iff, opensUnit_iff]
  constructor
  · rintro ⟨ws, u, rest, ht, hne, hws, hu, hstop⟩
    have hpre : ws ++ u <+: q ++ '\'' :: t := ⟨rest, by rw [ht, append_assoc]⟩
    have hchars : ∀ c ∈ ws ++ u, (isWord c || isSpace c) = true := by
      intro c hc
      rcases mem_append.1 hc with hc | hc
      · rw [hws c hc, Bool.or_true]
      · rw [isWord_unit hu c hc, Bool.true_or]
    rcases prefix_part hpre with ⟨r, rfl⟩ | ⟨more, hmore, heq, hprefix⟩
    · rw [← append_assoc, append_assoc, append_cancel_left_eq] at ht
      rw [← ht, stops_quote] at hstop
      exact ⟨ws, u, r, append_assoc _ _ _, hne, hws, hu, hstop⟩
    · obtain ⟨c, more, rfl⟩ := exists_cons_of_ne_nil hmore
      obtain ⟨rfl, -⟩ := cons_prefix_cons.1 hprefix
      exact absurd (heq ▸ mem_append_right _ mem_cons_self) (quote_notMem hchars)
  · rintro ⟨ws, u, rest, rfl, hne, hws, hu, hstop⟩
    exact ⟨ws, u, rest ++ '\'' :: t, by simp only [append_assoc], hne, hws, hu, (stops_quote t).2 hstop⟩

theorem opensUnit_segments (h : segments t = q :: qs) : opensUnit t = opensUnit q := by
  obtain ⟨q', qs', hsegments, -, ⟨rfl, -⟩ | ⟨t', rfl, -⟩⟩ := segments_cons t
  · rw [h] at hsegments
    rw [(List.cons.inj hsegments).1]
  · rw [h] at hsegments
    rw [opensUnit_quote, (List.cons.inj hsegments).1]

theorem endsHead_iff : endsHead q = true ↔ ∃ x h, q = x ++ h ∧ IsHead h ∧ atWord (lastOr none x) = true := by
  rw [endsHead, isSome_iff_exists]
  constructor
  · rintro ⟨⟨x, h⟩, hcut⟩
    exact ⟨x, h, cutHead_eq_some hcut⟩
  · rintro ⟨x, h, rfl, hhead, hstart⟩
    generalize (none : Option Char) = before at hstart
    induction x generalizing before with
    | nil =>
      obtain ⟨c, h, rfl⟩ := exists_cons_of_ne_nil hhead.ne_nil
      rw [lastOr_nil] at hstart
      exact ⟨([], c :: h), by rw [nil_append, cutHead, hstart, isHead_iff.2 hhead]; rfl⟩
    | cons c x ih =>
      rw [lastOr_cons] at hstart
      obtain ⟨parts, hparts⟩ := ih (some c) hstart
      rw [cons_append, cutHead]
      split_ifs
      · exact ⟨_, rfl⟩
      · exact ⟨_, by rw [hparts]; rfl⟩

/-- the literal of a text lies in its first segments -/
theorem literalPart_ne_none : literalPart t ≠ none ↔
    ∃ body behind rest, segments t = body :: behind :: rest ∧ body ≠ [] ∧ opensUnit behind = true := by
  rw [ne_none_iff_exists']
  constructor
  · rintro ⟨⟨⟨body, u⟩, rest⟩, h⟩
    obtain ⟨t', rfl, hne, hquote, hunit⟩ := literalPart_eq_some.1 h
    obtain ⟨behind, qs, hsegments, -⟩ := segments_cons t'
    refine ⟨body, behind, qs, by rw [segments_quote hquote, hsegments], hne, ?_⟩
    rw [← opensUnit_segments hsegments, opensUnit, hunit]
    rfl
  · rintro ⟨body, behind, rest, hsegments, hne, hopens⟩
    obtain ⟨q, qs, hsegments', hquote, ⟨rfl, hnil⟩ | ⟨t', rfl, hrest⟩⟩ := segments_cons t
    · rw [hnil, hsegments] at hsegments'
      cases hsegments'
    · rw [hsegments, hrest, List.cons.injEq] at hsegments'
      obtain ⟨rfl, hbehind⟩ := hsegments'
      rw [← opensUnit_segments hbehind.symm, opensUnit, isSome_iff_exists] at hopens
      obtain ⟨⟨u, r⟩, hunit⟩ := hopens
      exact ⟨((body, u), r), literalPart_eq_some.2 ⟨t', rfl, hne, hquote, hunit⟩⟩

/-- no literal begins in any segment -/
def Free : List (List Char) → Prop
  | q :: body :: behind :: rest =>
    ¬(endsHead q = true ∧ body ≠ [] ∧ opensUnit behind = true) ∧ Free (body :: behind :: rest)
  | _ => True

theorem free_quote (q t : List Char) :
    Free (q :: segments t) ↔ ¬(endsHead q = true ∧ literalPart t ≠ none) ∧ Free (segments t) := by
  rw [literalPart_ne_none]
  obtain ⟨body, qs, hsegments, -⟩ := segments_cons t
  rw [hsegments]
  cases qs with
  | nil =>
    refine iff_of_true trivial ⟨?_, trivial⟩
    rintro ⟨-, _, _, _, heq, -⟩
    cases heq
  | cons behind rest =>
    refine and_congr_left fun _ => not_congr (and_congr_right fun _ => ?_)
    constructor
    · exact fun h => ⟨body, behind, rest, rfl, h⟩
    · rintro ⟨_, _, _, heq, h⟩
      cases heq
      exact h

/-- **Literals left.** The first rewrite leaves a text as it is exactly when no literal begins in it. -/
theorem moved_eq_self_iff (s : List Char) : moved s = s ↔ Free (segments s) := by
  induction s using literal_induction with
  | last q hq => exact iff_of_true (moved_last hq) (by rw [segments_last hq]; trivial)
  | plain q t hq hnone ih =>
    have hnot : ¬(endsHead q = true ∧ literalPart t ≠ none) := by
      rintro ⟨hends, hpart⟩
      rw [endsHead] at hends
      rcases hnone with hcut | hpart'
      · rw [hcut] at hends
        cases hends
      · exact hpart hpart'
    rw [moved_plain hq hnone, segments_quote hq, free_quote, and_iff_right hnot, append_cancel_left_eq,
      cons_inj_right, ih]
  | literal q t x h body ws u rest hq hL ih =>
    refine iff_of_false ?_ ?_
    · intro heq
      rw [moved_literal hq hL, hL.text] at heq
      have hstart : '\'' ∉ x ++ intervalStart := by
        intro hmem
        rcases mem_append.1 hmem with hmem | hmem
        · exact hq (hL.segment ▸ mem_append_left h hmem)
        · exact quote_notMem interval_chars hmem
      obtain ⟨-, hbehind⟩ := append_quote_inj hstart hq heq
      rw [append_assoc, append_cancel_left_eq] at hbehind
      exact absurd (List.cons.inj hbehind).1 (by decide)
    · rw [segments_quote hq, free_quote, not_and_or, not_not]
      refine .inl ⟨?_, ?_⟩
      · rw [endsHead, hL.cut]
        rfl
      · rw [hL.part]
        exact some_ne_none _

/-! ## Segments without calls -/

theorem hasCall_eq_false : hasCall q = false ↔ truncPattern.Clean none q [] := by
  rw [hasCall]
  constructor
  · intro h
    refine (Pattern.clean_or_match trunc_bounded none q).resolve_right ?_
    rintro ⟨x, text, t, d, rfl, hne, hclean, hmatch⟩
    rw [Pattern.pieces_clean _ hclean, Pattern.pieces_match hne hmatch, any_append, any_cons] at h
    simp [Piece.isFound] at h
  · intro h
    have hpieces := Pattern.pieces_clean (fun (_ : Unit) (_ : Char) => ()) h ()
    rw [append_nil] at hpieces
    rw [hpieces, Pattern.pieces, append_nil, List.any_map, List.any_eq_false]
    exact fun c _ => Bool.false_ne_true

theorem truncated_clean (h : truncPattern.Clean none q []) : truncated q = q := by
  have hpieces := Pattern.pieces_clean (fun (_ : Unit) (_ : Char) => ()) h ()
  rw [append_nil, Pattern.pieces, append_nil] at hpieces
  rw [truncated, Pattern.sub, hpieces, Pattern.flatMap_replace_same]

variable {before : Option Char} {x : List Char}

/-- a part in which no call begins has none where less follows -/
theorem clean_of_append (h : truncPattern.Clean before x t) : truncPattern.Clean before x [] := by
  induction x generalizing before with
  | nil => trivial
  | cons c x ih =>
    refine ⟨?_, ih h.2⟩
    by_contra hne
    obtain ⟨⟨n, d⟩, hsome⟩ := ne_none_iff_exists'.1 hne
    obtain ⟨hstart, m, hm, htext, hn⟩ := trunc_eq_some.1 hsome
    rw [append_nil] at hm
    have hlonger : truncPattern before (c :: x ++ t) = some (n, d) :=
      trunc_eq_some.2 ⟨hstart, m, hm.trans (prefix_append _ _), htext, hn⟩
    rw [h.1] at hlonger
    cases hlonger

theorem clean_close_iff (ht : ')' ∉ t) : truncPattern.Clean before (x ++ t) [] ↔ truncPattern.Clean before x [] := by
  rw [Pattern.clean_append_iff, and_iff_left (clean_of_close ht _), append_nil]
  refine Pattern.clean_congr fun b y _ _ => ?_
  rw [trunc_append fun m e u htext hm => htext.prefix_of_close ht hm, append_nil]

variable {s : List Char}

theorem clean_fresh (h : Fresh before s) : truncPattern.Clean before s t ↔ truncPattern.Clean none s t := by
  cases s with
  | nil => exact Iff.rfl
  | cons c s =>
    have hhere : truncPattern before (c :: s ++ t) = truncPattern none (c :: s ++ t) := trunc_fresh (h.imp_right id)
    rw [Pattern.Clean, Pattern.Clean, hhere]

theorem atWord_close : atWord (some ')') = true := by
  rw [atWord, map_some, PyClasses.isWord_ascii ')' (by decide)]
  rfl

/-- a call, the parts of the text around it, and what they become -/
theorem call_induction {motive : List Char → Prop} (clean : ∀ q, truncPattern.Clean none q [] → motive q)
    (call : ∀ x m t e u, truncPattern.Clean none x (m ++ t) → atWord (lastOr none x) = true → TruncText m e u →
      truncated (x ++ (m ++ t)) =
        (x ++ truncStart) ++ '\'' :: (unitText u ++ '\'' :: (argumentText e ++ truncated t)) →
      motive t → motive (x ++ (m ++ t))) (q : List Char) : motive q := by
  induction hn : q.length using Nat.strong_induction_on generalizing q with
  | _ n ih =>
    rcases Pattern.clean_or_match trunc_bounded none q with hclean | ⟨x, text, t, ⟨e, u⟩, rfl, hne, hclean, hmatch⟩
    · exact clean q hclean
    · obtain ⟨hstart, m, ⟨rest, hrest⟩, htext, hlength⟩ := trunc_eq_some.1 hmatch
      obtain ⟨rfl, rfl⟩ : text = m ∧ t = rest := by
        have hinj := List.append_inj hrest hlength.symm
        exact ⟨hinj.1.symm, hinj.2.symm⟩
      refine call x text t e u hclean hstart htext ?_ (ih t.length ?_ t rfl)
      · have hlast : lastOr (lastOr none x) text = some ')' := by rw [lastOr, htext.getLast]; rfl
        have hfresh : Fresh (some ')') t := .inl atWord_close
        rw [truncated, Pattern.sub, Pattern.pieces_clean _ hclean, Pattern.pieces_match hne hmatch, hlast,
          Pattern.pieces_before (trunc_fresh hfresh), flatMap_append, Pattern.flatMap_replace_same,
          flatMap_cons, Piece.replace, replaceTrunc_eq, truncated, Pattern.sub]
        simp only [append_assoc, cons_append]
      · simp only [length_append] at hn
        have hpos := length_pos_of_ne_nil hne
        omega

/-! ## What a call becomes -/

theorem strip_noSpace (h : ∀ c ∈ w, isSpace c = false) : strip (String.ofList w) = String.ofList w := by
  have htrim : Trimmed isSpace w :=
    ⟨fun c hc => h c (mem_of_mem_head? hc), fun c hc => h c (mem_of_getLast? hc)⟩
  rw [PyStrip.strip_eq, String.toList_ofList, trim_of_trimmed _ _ htrim]

variable {e : List Char}

theorem IsExpression.noSpace (h : IsExpression e) : ∀ c ∈ e, isSpace c = false := by
  intro c hc
  rcases h with ⟨name, rfl, hfold⟩ | ⟨-, hall⟩
  · rcases mem_append.1 hc with hc | hc
    · exact isSpace_of_isWord (isWord_of_fold (w := "now".toList) (by decide) hfold c hc)
    · rw [mem_cons, mem_singleton] at hc
      rcases hc with rfl | rfl
      · exact isSpace_open
      · exact isSpace_close
  · have hchar := hall c hc
    rw [Bool.or_eq_true, decide_eq_true_eq] at hchar
    rcases hchar with hchar | rfl
    · exact isSpace_nameChar hchar
    · exact PyStrip.isSpace_graph '.' (by decide) (by decide)

theorem argumentText_eq (h : IsExpression e) : argumentText e = [',', ' '] ++ e ++ [')'] := by
  rw [argumentText, strip_noSpace h.noSpace, String.toList_ofList, String.toList_ofList]

/-- what a unit becomes has no blanks, quotation marks or parentheses -/
theorem unitText_chars {u : List Char} (h : ∀ c ∈ u, letter c = true) :
    ∀ c ∈ unitText u, isSpace c = false ∧ special c = false := by
  intro c hc
  rw [unitText, strip_noSpace fun d hd => isSpace_letter (h d hd)] at hc
  constructor
  · by_contra hne
    have hmem := mem_lower _ c (.inl (Bool.not_eq_false _ ▸ hne)) hc
    rw [String.toList_ofList] at hmem
    exact hne (isSpace_letter (h c hmem))
  · by_contra hne
    obtain ⟨hascii, hword, -⟩ := special_ascii (Bool.not_eq_false _ ▸ hne)
    have hlower : c.isLower = false := by
      by_contra hlower
      rw [Bool.not_eq_false] at hlower
      rw [PyClasses.isWord_ascii c hascii, Char.isAlphanum, Ascii.isAlpha_eq, hlower] at hword
      simp at hword
    have hmem := mem_lower _ c (.inr ⟨hascii, hlower⟩) hc
    rw [String.toList_ofList] at hmem
    rw [isWord_letter (h c hmem)] at hword
    cases hword

theorem argumentText_quote (h : IsExpression e) : '\'' ∉ argumentText e := by
  rw [argumentText_eq h]
  simp only [mem_append, mem_cons, not_or]
  exact ⟨⟨⟨by decide, by decide, not_mem_nil⟩, h.quote_notMem⟩, by decide, not_mem_nil⟩

/-- the first quotation mark or parenthesis of a call comes behind its name -/
theorem trunc_none_of_special {c : Char} (ha : ∀ d ∈ a, special d = false)
    (hc : special c = true) (h : c ≠ '(' ∨ a.length < 10) (z : List Char) :
    truncPattern before (a ++ c :: z) = none := by
  by_contra hne
  obtain ⟨⟨k, d⟩, hsome⟩ := ne_none_iff_exists'.1 hne
  obtain ⟨-, m, ⟨rest, hrest⟩, htext, -⟩ := trunc_eq_some.1 hsome
  obtain ⟨n, w, inner, rfl, hn, hw, -⟩ := htext.shape
  have hnw : ∀ d ∈ n ++ w, special d = false := by
    intro d hd
    rcases mem_append.1 hd with hd | hd
    · exact not_special_of_isWord (hn.isWord d hd)
    · exact not_special_of_isSpace (hw d hd)
  have hstop : ∀ {d : Char} {r : List Char}, special d = true → Stops (fun d => !special d) (d :: r) := fun hd =>
    stops_cons (by rw [hd]; rfl)
  have hsplit := takeWhile_eq (fun d hd => by rw [ha d hd]; rfl) (hstop (r := z) hc)
  have hsplit' := takeWhile_eq (fun d hd => by rw [hnw d hd]; rfl) (hstop (d := '(') (r := inner ++ [')'] ++ rest) rfl)
  have htext' : (n ++ w) ++ '(' :: (inner ++ [')'] ++ rest) = a ++ c :: z := by
    rw [← hrest]
    simp only [append_assoc, cons_append, nil_append]
  rw [htext'] at hsplit'
  rcases h with h | h
  · exact h (List.cons.inj (hsplit.2.symm.trans hsplit'.2)).1
  · have hlength := congrArg List.length (hsplit.1.symm.trans hsplit'.1)
    have hname := hn.length
    rw [length_append] at hlength
    omega

theorem clean_until {c : Char} (ha : ∀ d ∈ a, special d = false)
    (hc : special c = true) (h : c ≠ '(' ∨ a.length < 10) (z : List Char) : truncPattern.Clean before a (c :: z) := by
  induction a generalizing before with
  | nil => trivial
  | cons d a ih =>
    refine ⟨trunc_none_of_special ha hc h z, ih (fun d' hd' => ha d' (mem_cons_of_mem d hd')) ?_⟩
    exact h.imp_right fun hlt => Nat.lt_of_succ_lt hlt

theorem clean_special {cs : List Char} (hcs : cs.all special = true) (z : List Char) :
    truncPattern.Clean before cs z := by
  induction cs generalizing before with
  | nil => trivial
  | cons c cs ih =>
    rw [all_cons, Bool.and_eq_true] at hcs
    refine ⟨?_, ih hcs.2⟩
    exact trunc_none_of_special (a := []) (fun d hd => nomatch hd) hcs.1 (.inr (by decide)) _

/-- no call begins in the first argument of another -/
theorem clean_argument (h : IsExpression e) (before : Option Char) (z : List Char) :
    truncPattern.Clean before (argumentText e) z := by
  have hcomma : ∀ d ∈ [',', ' '], special d = false :=
    forall_mem_cons.2 ⟨by decide, forall_mem_singleton.2 (by decide)⟩
  rw [argumentText_eq h]
  rcases h with ⟨name, rfl, hfold⟩ | ⟨-, hall⟩
  · have hname : ∀ d ∈ [',', ' '] ++ name, special d = false := by
      rw [forall_mem_append]
      exact ⟨hcomma, fun d hd => not_special_of_isWord (isWord_of_fold (w := "now".toList) (by decide) hfold d hd)⟩
    have hlength : ([',', ' '] ++ name).length < 10 := by
      have hthree := congrArg List.length hfold
      rw [length_map] at hthree
      rw [length_append, hthree]
      decide
    have htext : [',', ' '] ++ (name ++ ['(', ')']) ++ [')'] = ([',', ' '] ++ name) ++ ['(', ')', ')'] := by
      simp only [append_assoc, cons_append, nil_append]
    rw [htext, Pattern.clean_append_iff]
    exact ⟨clean_until hname rfl (.inr hlength) _, clean_special (by decide) z⟩
  · have hchars : ∀ d ∈ [',', ' '] ++ e, special d = false := by
      rw [forall_mem_append]
      refine ⟨hcomma, fun d hd => ?_⟩
      have hchar := hall d hd
      rw [Bool.or_eq_true, decide_eq_true_eq] at hchar
      rcases hchar with hchar | rfl
      · exact not_quote_of_nameChar hchar
      · rfl
    rw [Pattern.clean_append_iff]
    exact ⟨clean_until hchars rfl (.inl (by decide)) _, clean_special (by decide) z⟩

/-! ## The ends of segments -/

theorem IsTruncName.ne_nil {n : List Char} (h : IsTruncName n) : n ≠ [] :=
  ne_nil_of_length_pos (Nat.lt_of_lt_of_le (by omega) h.length)

theorem truncStart_name : ∃ n, truncStart = n ++ ['('] ∧ IsTruncName n := by
  refine ⟨"DATE_TRUNC".toList, by decide, ?_⟩
  have hfold : "DATE_TRUNC".toList.map fold = "DATE_TRUNC".toList.map Char.toLower := fold_word (by decide)
  rw [IsTruncName, hfold]
  decide

theorem endsHead_space (h : endsHead q = true) : ∃ c ∈ q.getLast?, isSpace c = true := by
  obtain ⟨x, _, rfl, ⟨k, ws, rfl, -, hne, hspace⟩, -⟩ := endsHead_iff.1 h
  refine ⟨ws.getLast hne, ?_, hspace _ (getLast_mem hne)⟩
  rw [← append_assoc, getLast?_append_of_ne_nil _ hne, getLast?_eq_some_getLast hne, mem_def]

/-- a head stands behind every parenthesis -/
theorem endsHead_append {y : List Char} (hy : y.getLast? = some ')') (t : List Char) :
    endsHead (y ++ t) = endsHead t := by
  have hlast : ∀ x, lastOr none (y ++ x) = lastOr (some ')') x := by
    intro x
    have hclose : lastOr none y = some ')' := by rw [lastOr, hy]; rfl
    rw [lastOr_append, hclose]
  have hstart : ∀ x, atWord (lastOr none (y ++ x)) = atWord (lastOr none x) := by
    intro x
    rw [hlast]
    cases x with
    | nil =>
      rw [lastOr_nil, lastOr_nil, atWord_close]
      rfl
    | cons c x => rw [lastOr_cons, lastOr_cons]
  rw [Bool.eq_iff_iff, endsHead_iff, endsHead_iff]
  constructor
  · rintro ⟨x, h, heq, hhead, hx⟩
    rcases append_eq_append_iff.1 heq with ⟨x', rfl, rfl⟩ | ⟨h', rfl, rfl⟩
    · exact ⟨x', h, rfl, hhead, hstart x' ▸ hx⟩
    · cases h' using List.reverseRecOn with
      | nil =>
        exact ⟨[], t, rfl, hhead, rfl⟩
      | append_singleton h' c =>
        rw [← append_assoc, getLast?_concat, Option.some.injEq] at hy
        have hspecial := hhead.not_special c (mem_append_left _ (mem_append_right _ mem_cons_self))
        rw [hy] at hspecial
        cases hspecial
  · rintro ⟨x, h, rfl, hhead, hx⟩
    exact ⟨y ++ x, h, (append_assoc _ _ _).symm, hhead, (hstart x).trans hx⟩

/-- what stands behind a name does not matter for the unit that a segment begins with -/
theorem opensUnit_name {x n z : List Char} (hx : atWord (lastOr none x) = true) (hne : n ≠ [])
    (hn : ∀ c ∈ n, isWord c = true) (hunit : n.map fold ∉ intervalUnits) (hz : Stops isWord z) :
    opensUnit (x ++ (n ++ z)) = true ↔
      ∃ ws u c rest, x = ws ++ (u ++ c :: rest) ∧ ws ≠ [] ∧ (∀ c ∈ ws, isSpace c = true) ∧
        u.map fold ∈ intervalUnits ∧ isWord c = false := by
  obtain ⟨d, n', hd⟩ := exists_cons_of_ne_nil hne
  have hword := hn d (hd ▸ mem_cons_self)
  rw [opensUnit_iff]
  constructor
  · rintro ⟨ws, u, rest, heq, hblank, hws, hu, hstop⟩
    have hpre : ws ++ u <+: x ++ (n ++ z) := ⟨rest, by rw [heq, append_assoc]⟩
    rcases prefix_part hpre with ⟨r, rfl⟩ | ⟨more, hmore, hsplit, hprefix⟩
    · rw [append_assoc, append_assoc, append_cancel_left_eq, append_cancel_left_eq] at heq
      cases r with
      | nil =>
        -- the name would go on the unit
        rw [← heq, hd] at hstop
        rw [hstop d rfl] at hword
        cases hword
      | cons c r =>
        rw [← heq] at hstop
        exact ⟨ws, u, c, r, append_assoc _ _ _, hblank, hws, hu, hstop c rfl⟩
    · obtain ⟨c, more, rfl⟩ := exists_cons_of_ne_nil hmore
      have hc : isWord c = true := by
        rw [hd] at hprefix
        obtain ⟨rfl, -⟩ := cons_prefix_cons.1 hprefix
        exact hword
      -- the unit begins where the call does, so that the name is the unit
      have hws : x = ws := by
        rcases append_eq_append_iff.1 hsplit with ⟨letters, rfl, hletters⟩ | ⟨blanks, rfl, hblanks⟩
        · cases letters using List.reverseRecOn with
          | nil => exact append_nil ws
          | append_singleton letters b =>
            have hb : isWord b = true :=
              isWord_unit hu b (hletters ▸ mem_append_left _ (mem_append_right _ mem_cons_self))
            rw [lastOr, ← append_assoc, getLast?_concat, some_or, atWord, map_some, hb] at hx
            cases hx
        · cases blanks with
          | nil => exact (append_nil x).symm
          | cons b blanks =>
            have hb := hws b (mem_append_right _ mem_cons_self)
            rw [← (List.cons.inj hblanks).1, isSpace_of_isWord hc] at hb
            cases hb
      subst hws
      rw [append_cancel_left_eq] at heq
      have hsame := congrArg (List.takeWhile isWord) heq
      rw [takeWhile_isWord hn hz, takeWhile_isWord (isWord_unit hu) hstop] at hsame
      exact absurd (hsame ▸ hu) hunit
  · rintro ⟨ws, u, c, rest, rfl, hne, hws, hu, hc⟩
    exact ⟨ws, u, c :: rest ++ (n ++ z), by simp only [append_assoc], hne, hws, hu, stops_cons hc⟩

/-- a call does not change the unit that its segment begins with -/
theorem opensUnit_call {x m e u : List Char} (hx : atWord (lastOr none x) = true) (hm : TruncText m e u)
    (t : List Char) : opensUnit (x ++ truncStart) = opensUnit (x ++ (m ++ t)) := by
  have hstop : ∀ {w z : List Char}, (∀ c ∈ w, isSpace c = true) → Stops isWord (w ++ '(' :: z) := by
    intro w z hw
    cases w with
    | nil => exact stops_cons (PyClasses.isWord_ascii '(' (by decide))
    | cons c w => exact stops_cons (PyClasses.isWord_space c (hw c mem_cons_self))
  obtain ⟨name, hname, htrunc⟩ := truncStart_name
  obtain ⟨n, w, inner, rfl, hn, hw, -⟩ := hm.shape
  have hopen : Stops isWord ['('] := stops_cons (PyClasses.isWord_ascii '(' (by decide))
  rw [hname, Bool.eq_iff_iff, opensUnit_name hx htrunc.ne_nil htrunc.isWord htrunc.not_unit hopen, append_assoc,
    append_assoc, cons_append, opensUnit_name hx hn.ne_nil hn.isWord hn.not_unit (hstop hw)]

/-- what a segment becomes: itself, or segments that agree with it at both ends and in between begin and end with no
part of a literal -/
def Cuts (q : List Char) (l : List (List Char)) : Prop :=
  (l = [q] ∧ hasCall q = false) ∨
    ∃ first unit mid last, l = first :: unit :: (mid ++ [last]) ∧ hasCall q = true ∧
      (∀ p ∈ first :: unit :: mid, endsHead p = false) ∧ endsHead last = endsHead q ∧
      opensUnit first = opensUnit q ∧ opensUnit unit = false

theorem TruncText.ne_nil {m e u : List Char} (h : TruncText m e u) : m ≠ [] := by
  rintro rfl
  cases h.getLast

theorem cuts_truncated (q : List Char) (hq : '\'' ∉ q) : Cuts q (segments (truncated q)) ∧
    ∀ p ∈ segments (truncated q), hasCall p = false := by
  induction q using call_induction with
  | clean q hclean =>
    rw [truncated_clean hclean, segments_last hq]
    have hnone := hasCall_eq_false.2 hclean
    exact ⟨.inl ⟨rfl, hnone⟩, fun p hp => mem_singleton.1 hp ▸ hnone⟩
  | call x m t e u hclean hstart htext heq ih =>
    simp only [mem_append, not_or] at hq
    obtain ⟨hx, -, ht⟩ := hq
    obtain ⟨hcuts, hnone⟩ := ih ht
    obtain ⟨first, qs, hsegments, -⟩ := segments_cons (truncated t)
    have hunit := unitText_chars htext.letters
    have hstartQuote : '\'' ∉ x ++ truncStart := fun hmem => (mem_append.1 hmem).elim hx (by decide)
    have hargument := argumentText_quote htext.expr
    have hshape : segments (truncated (x ++ (m ++ t))) =
        (x ++ truncStart) :: unitText u :: (argumentText e ++ first) :: qs := by
      rw [heq, segments_quote hstartQuote, segments_quote (quote_notMem_of_special fun c hc => (hunit c hc).2),
        segments_append_left hargument hsegments]
    have hcall : hasCall (x ++ (m ++ t)) = true := by
      by_contra hne
      have hnot := (Pattern.clean_append_iff.1 (hasCall_eq_false.1 (Bool.not_eq_true _ ▸ hne))).2
      have hmatch : truncPattern (lastOr none x) (m ++ t) = some (m.length, (e, u)) :=
        trunc_eq_some.2 ⟨hstart, m, prefix_append m t, htext, rfl⟩
      obtain ⟨c, m', rfl⟩ := exists_cons_of_ne_nil htext.ne_nil
      have hhere := hnot.1
      rw [append_nil] at hhere
      exact some_ne_none _ (hmatch.symm.trans hhere)
    have hfirst : endsHead (x ++ truncStart) = false := by
      by_contra hne
      obtain ⟨c, hc, hspace⟩ := endsHead_space (Bool.not_eq_false _ ▸ hne)
      obtain ⟨n, hn, -⟩ := truncStart_name
      rw [hn, ← append_assoc, getLast?_concat, mem_def, Option.some.injEq] at hc
      rw [← hc, isSpace_open] at hspace
      cases hspace
    have hmiddle : endsHead (unitText u) = false := by
      by_contra hne
      obtain ⟨c, hc, hspace⟩ := endsHead_space (Bool.not_eq_false _ ▸ hne)
      rw [(hunit c (mem_of_getLast? hc)).1] at hspace
      cases hspace
    have hopens : opensUnit (unitText u) = false := by
      by_contra hne
      obtain ⟨ws, v, rest, heq', hws, hspace, -⟩ := opensUnit_iff.1 (Bool.not_eq_false _ ▸ hne)
      obtain ⟨c, ws, rfl⟩ := exists_cons_of_ne_nil hws
      have hc := (hunit c (heq' ▸ mem_cons_self)).1
      rw [hspace c mem_cons_self] at hc
      cases hc
    have hbehind : (argumentText e).getLast? = some ')' := by rw [argumentText, getLast?_concat]
    have hends : endsHead (x ++ (m ++ t)) = endsHead t := by
      rw [← append_assoc, endsHead_append]
      rw [getLast?_append_of_ne_nil _ htext.ne_nil, htext.getLast]
    refine ⟨?_, ?_⟩
    · rcases hcuts with ⟨hlast, -⟩ | ⟨first', unit', mid', last', hmore, -, hheads, hlast, -⟩
      · rw [hsegments, List.cons.injEq] at hlast
        obtain ⟨rfl, rfl⟩ := hlast
        refine .inr ⟨_, _, [], _, hshape, hcall, ?_, ?_, opensUnit_call hstart htext _, hopens⟩
        · exact forall_mem_cons.2 ⟨hfirst, forall_mem_singleton.2 hmiddle⟩
        · rw [endsHead_append hbehind, hends]
      · rw [hsegments, List.cons.injEq] at hmore
        obtain ⟨rfl, rfl⟩ := hmore
        obtain ⟨hhead, hheads⟩ := forall_mem_cons.1 hheads
        refine .inr ⟨_, _, (argumentText e ++ first) :: unit' :: mid', last', hshape, hcall, ?_, hlast.trans hends.symm,
          opensUnit_call hstart htext _, hopens⟩
        refine forall_mem_cons.2 ⟨hfirst, forall_mem_cons.2 ⟨hmiddle, forall_mem_cons.2 ⟨?_, hheads⟩⟩⟩
        rw [endsHead_append hbehind, hhead]
    · rw [hsegments] at hnone
      obtain ⟨hcleanFirst, hcleanRest⟩ := forall_mem_cons.1 hnone
      rw [hshape]
      refine forall_mem_cons.2 ⟨?_, forall_mem_cons.2 ⟨?_, forall_mem_cons.2 ⟨?_, hcleanRest⟩⟩⟩
      · exact hasCall_eq_false.2 ((clean_close_iff (by decide)).2 (clean_of_append hclean))
      · exact hasCall_eq_false.2 (clean_of_close (close_notMem_of_special fun c hc => (hunit c hc).2) none)
      · refine hasCall_eq_false.2 (Pattern.clean_append_iff.2 ⟨clean_argument htext.expr _ _, ?_⟩)
        have hlast : lastOr none (argumentText e) = some ')' := by rw [lastOr, hbehind]; rfl
        rw [hlast, clean_fresh (.inl atWord_close)]
        exact hasCall_eq_false.1 hcleanFirst

/-- no literal without a call in it begins in any segment -/
def FreeOfCalls : List (List Char) → Prop
  | q :: body :: behind :: rest =>
    ¬(endsHead q = true ∧ body ≠ [] ∧ hasCall body = false ∧ opensUnit behind = true) ∧
      FreeOfCalls (body :: behind :: rest)
  | _ => True

theorem free_cons {p : List Char} (hp : endsHead p = false) (l : List (List Char)) : Free (p :: l) ↔ Free l := by
  match l with
  | [] => exact Iff.rfl
  | [_] => exact Iff.rfl
  | _ :: _ :: _ =>
    refine and_iff_right ?_
    rintro ⟨h, -⟩
    rw [hp] at h
    cases h

theorem free_append {pre : List (List Char)} (h : ∀ p ∈ pre, endsHead p = false) (l : List (List Char)) :
    Free (pre ++ l) ↔ Free l := by
  induction pre with
  | nil => exact Iff.rfl
  | cons p pre ih =>
    rw [cons_append, free_cons (h p mem_cons_self), ih fun q hq => h q (mem_cons_of_mem p hq)]

theorem free_congr {p p' : List Char} (h : endsHead p = endsHead p') (l : List (List Char)) :
    Free (p :: l) ↔ Free (p' :: l) := by
  match l with
  | [] => exact Iff.rfl
  | [_] => exact Iff.rfl
  | _ :: _ :: _ => rw [Free, Free, h]

/-- segments behind what a segment becomes -/
theorem free_cuts {c : List (List Char)} (h : Cuts q c) (l : List (List Char)) : Free (c ++ l) ↔ Free (q :: l) := by
  rcases h with ⟨rfl, -⟩ | ⟨first, unit, mid, last, rfl, -, hheads, hlast, -⟩
  · exact Iff.rfl
  · rw [← cons_append, ← cons_append, append_assoc, free_append hheads, singleton_append,
      free_congr hlast]

/-- **Literals among calls.** -/
theorem free_flatMap (f : List Char → List (List Char))
    (h : ∀ p ∈ q :: qs, Cuts p (f p)) : Free ((q :: qs).flatMap f) ↔ FreeOfCalls (q :: qs) := by
  induction qs generalizing q with
  | nil =>
    rw [flatMap_singleton, ← append_nil (f q), free_cuts (h q mem_cons_self)]
    exact Iff.rfl
  | cons body qs ih =>
    obtain ⟨hq, hqs⟩ := forall_mem_cons.1 h
    have hbody := hqs body mem_cons_self
    have hrest := ih hqs
    rw [flatMap_cons, free_cuts hq, flatMap_cons]
    rw [flatMap_cons] at hrest
    rcases hbody with ⟨hclean, hnone⟩ | ⟨first, unit, mid, last, hcall, hsome, -, -, -, hunit⟩
    · cases qs with
      | nil =>
        rw [hclean]
        exact Iff.rfl
      | cons behind qs =>
        have hbehind := hqs behind (mem_cons_of_mem body mem_cons_self)
        obtain ⟨p, ps, hcons, hopens⟩ : ∃ p ps, f behind = p :: ps ∧ opensUnit p = opensUnit behind := by
          rcases hbehind with ⟨hf, -⟩ | ⟨first, unit, mid, last, hf, -, -, -, hopens, -⟩
          · exact ⟨behind, [], hf, rfl⟩
          · exact ⟨first, _, hf, hopens⟩
        rw [hclean, flatMap_cons, hcons] at hrest ⊢
        rw [FreeOfCalls, ← hrest, hnone, eq_self_iff_true, true_and, ← hopens]
        exact Iff.rfl
    · have hleft : Free (q :: (f body ++ qs.flatMap f)) ↔ Free (f body ++ qs.flatMap f) := by
        rw [hcall]
        refine and_iff_right ?_
        rintro ⟨-, -, h⟩
        rw [hunit] at h
        cases h
      have hright : FreeOfCalls (q :: body :: qs) ↔ FreeOfCalls (body :: qs) := by
        cases qs with
        | nil => exact Iff.rfl
        | cons behind qs =>
          refine and_iff_right ?_
          rintro ⟨-, -, h, -⟩
          rw [hsome] at h
          cases h
      rw [hleft, hrest, hright]

theorem segments_truncated (s : List Char) :
    segments (truncated s) = (segments s).flatMap fun q => segments (truncated q) := by
  induction s using segment_induction with
  | last q hq => rw [segments_last hq, flatMap_singleton]
  | next q t hq ih => rw [truncated_quote, segments_append, segments_quote hq, flatMap_cons, ih]

/-- the literals that are left once the calls are rewritten -/
theorem free_truncated (s : List Char) : Free (segments (truncated s)) ↔ FreeOfCalls (segments s) := by
  obtain ⟨q, qs, hsegments, -⟩ := segments_cons s
  rw [segments_truncated, hsegments]
  refine free_flatMap _ fun p hp => (cuts_truncated p ?_).1
  exact segments_notMem s p (hsegments ▸ hp)

/-! ## The condition on a text -/

/-- the head of a literal that is rewritten -/
theorem isHead_start : IsHead intervalStart := by
  have hfold : "INTERVAL".toList.map fold = "INTERVAL".toList.map Char.toLower := fold_word (by decide)
  refine ⟨"INTERVAL".toList, [' '], by decide, ?_, by decide, forall_mem_singleton.2 isSpace_blank⟩
  rw [hfold]
  decide

theorem hasCall_append (ht : ')' ∉ t) : hasCall (x ++ t) = hasCall x := by
  rw [Bool.eq_iff_iff, ← not_iff_not, Bool.not_eq_true, Bool.not_eq_true, hasCall_eq_false, hasCall_eq_false,
    clean_close_iff ht]

/-- the body of a literal that is rewritten begins with a unit if it did, or if it was blank -/
theorem opensUnit_body {body u : List Char} (hu : u.map fold ∈ intervalUnits) :
    opensUnit (body ++ ' ' :: u) = (opensUnit body || body.all isSpace) := by
  have hblank : isWord ' ' = false := PyClasses.isWord_space ' ' isSpace_blank
  rw [Bool.eq_iff_iff, Bool.or_eq_true, opensUnit_iff, opensUnit_iff, List.all_eq_true]
  constructor
  · rintro ⟨ws, v, rest, heq, hne, hws, hv, hstop⟩
    have hpre : ws ++ v <+: body ++ ' ' :: u := ⟨rest, by rw [heq, append_assoc]⟩
    rcases prefix_part hpre with ⟨r, rfl⟩ | ⟨more, hmore, hsplit, hprefix⟩
    · rw [append_assoc, append_assoc, append_cancel_left_eq, append_cancel_left_eq] at heq
      refine .inl ⟨ws, v, r, append_assoc _ _ _, hne, hws, hv, ?_⟩
      cases r with
      | nil => exact fun c hc => nomatch hc
      | cons c r =>
        rw [← heq] at hstop
        exact stops_cons (hstop c rfl)
    · obtain ⟨c, more, rfl⟩ := exists_cons_of_ne_nil hmore
      obtain ⟨rfl, -⟩ := cons_prefix_cons.1 hprefix
      rcases append_eq_append_iff.1 hsplit with ⟨letters, rfl, rfl⟩ | ⟨blanks, rfl, -⟩
      · have hword := isWord_unit hv ' ' (mem_append_right _ mem_cons_self)
        rw [hblank] at hword
        cases hword
      · exact .inr fun d hd => hws d (mem_append_left _ hd)
  · rintro (⟨ws, v, rest, rfl, hne, hws, hv, hstop⟩ | hspace)
    · refine ⟨ws, v, rest ++ ' ' :: u, by simp only [append_assoc], hne, hws, hv, ?_⟩
      cases rest with
      | nil => exact stops_cons hblank
      | cons c rest => exact stops_cons (hstop c rfl)
    · refine ⟨body ++ [' '], u, [], ?_, append_ne_nil_of_right_ne_nil _ (cons_ne_nil _ _), ?_, hu, ?_⟩
      · rw [append_nil, append_assoc, singleton_append]
      · exact forall_mem_append.2 ⟨hspace, forall_mem_singleton.2 isSpace_blank⟩
      · exact fun c hc => nomatch hc

/-- the segment that a literal begins in begins with a unit as before -/
theorem opensUnit_head {x h h' : List Char} (hx : atWord (lastOr none x) = true) (hh : IsHead h) (hh' : IsHead h') :
    opensUnit (x ++ h) = opensUnit (x ++ h') := by
  have hname : ∀ {k : List Char}, k.map fold = "interval".toList →
      k ≠ [] ∧ (∀ c ∈ k, isWord c = true) ∧ k.map fold ∉ intervalUnits := by
    intro k hk
    refine ⟨?_, isWord_of_fold (by decide) hk, hk ▸ by decide⟩
    rintro rfl
    cases hk
  have hstop : ∀ {ws : List Char}, ws ≠ [] → (∀ c ∈ ws, isSpace c = true) → Stops isWord ws := by
    intro ws hne hws
    obtain ⟨c, ws, rfl⟩ := exists_cons_of_ne_nil hne
    exact stops_cons (PyClasses.isWord_space c (hws c mem_cons_self))
  obtain ⟨k, ws, rfl, hk, hne, hws⟩ := hh
  obtain ⟨k', ws', rfl, hk', hne', hws'⟩ := hh'
  rw [Bool.eq_iff_iff, opensUnit_name hx (hname hk).1 (hname hk).2.1 (hname hk).2.2 (hstop hne hws),
    opensUnit_name hx (hname hk').1 (hname hk').2.1 (hname hk').2.2 (hstop hne' hws')]

/-- what a text becomes begins with a unit if the text does -/
theorem opensUnit_moved (s : List Char) : opensUnit (moved s) = opensUnit s := by
  induction s using literal_induction with
  | last q hq => rw [moved_last hq]
  | plain q t hq hnone => rw [moved_plain hq hnone, opensUnit_quote, opensUnit_quote]
  | literal q t x h body ws u rest hq hL =>
    rw [moved_literal hq hL, opensUnit_quote, opensUnit_quote, hL.segment, opensUnit_head hL.start isHead_start hL.head]

/-- the segments of a text that a literal begins in, and what they become -/
theorem segments_literal {q t x h body ws u rest : List Char} (hq : '\'' ∉ q) (hL : LiteralAt q t x h body ws u rest) :
    ∃ r rs, segments rest = r :: rs ∧ Stops isWord r ∧
      segments (q ++ '\'' :: t) = q :: body :: (ws ++ u ++ r) :: rs ∧
      segments (moved (q ++ '\'' :: t)) = (x ++ intervalStart) :: (body ++ ' ' :: u) :: segments (moved rest) := by
  obtain ⟨r, rs, hsegments, -, hrest⟩ := segments_cons rest
  have hstop : Stops isWord r := by
    rcases hrest with ⟨rfl, -⟩ | ⟨t', rfl, -⟩
    · exact hL.stops
    · exact (stops_quote t').1 hL.stops
  have hunit : '\'' ∉ ws ++ u := by
    refine quote_notMem fun c hc => ?_
    rcases mem_append.1 hc with hc | hc
    · rw [hL.blanks c hc, Bool.or_true]
    · rw [isWord_unit hL.unit c hc, Bool.true_or]
  have hx : '\'' ∉ x := fun hmem => hq (hL.segment ▸ mem_append_left h hmem)
  refine ⟨r, rs, hsegments, hstop, ?_, ?_⟩
  · rw [segments_quote hq, hL.text, segments_quote hL.body_quote, ← append_assoc,
      segments_append_left hunit hsegments]
  · have hstart : '\'' ∉ x ++ intervalStart := fun hmem =>
      (mem_append.1 hmem).elim hx (quote_notMem interval_chars)
    have hbody : '\'' ∉ body ++ ' ' :: u := fun hmem =>
      (mem_append.1 hmem).elim hL.body_quote (quote_notMem (unit_chars hL.unit))
    rw [moved_literal hq hL, segments_quote hstart, segments_quote hbody]

theorem settled_plain (opened : Bool) (h : cutHead none q = none ∨ literalPart t = none)
    {body : List Char} (hsegments : segments t = body :: qs) :
    Settled opened q (body :: qs) = Settled (endsHead q) body qs := by
  cases qs with
  | nil => rfl
  | cons behind qs =>
    rw [Settled]
    split
    · rename_i x h' u r hcut hunit
      have hbody : body = [] := by
        by_contra hne
        rcases h with hnone | hnone
        · rw [hcut] at hnone
          cases hnone
        · refine literalPart_ne_none.2 ⟨body, behind, qs, hsegments, hne, ?_⟩ hnone
          rw [opensUnit, hunit]
          rfl
      rw [if_pos hbody, endsHead, hcut]
      rfl
    · rfl

theorem settled_literal (opened : Bool) {q t x h body ws u rest r : List Char} {rs : List (List Char)}
    (hL : LiteralAt q t x h body ws u rest) (hr : Stops isWord r) :
    Settled opened q (body :: (ws ++ u ++ r) :: rs) = true ↔
      ¬(opened = true ∧ hasCall x = false ∧ body.all isSpace = true) ∧
        ¬(hasCall body = false ∧ opensUnit r = true) ∧ Settled false r rs = true := by
  have hunit : unitPart (ws ++ u ++ r) = some (u, r) :=
    unitPart_eq_some.2 ⟨ws, append_assoc _ _ _, hL.blanks_ne, hL.blanks, hL.unit, hr⟩
  rw [Settled, hL.cut, hunit]
  dsimp only
  rw [if_neg hL.body_ne, Bool.and_eq_true, Bool.and_eq_true, and_assoc, Bool.not_eq_true', Bool.not_eq_true',
    ← Bool.not_eq_true, ← Bool.not_eq_true, Bool.and_eq_true, Bool.and_eq_true, Bool.and_eq_true, Bool.not_eq_true',
    Bool.not_eq_true', and_assoc]

/-- **Literals left by the first rewrite.** -/
theorem freeOfCalls_moved (p s : List Char) (hp : endsHead p = true → literalPart s = none) (hs : segments s = q :: qs) :
    FreeOfCalls (p :: segments (moved s)) ↔ Settled (endsHead p) q qs = true := by
  induction s using literal_induction generalizing p q qs with
  | last q' hq =>
    rw [moved_last hq, hs]
    rw [segments_last hq, List.cons.injEq] at hs
    obtain ⟨rfl, rfl⟩ := hs
    exact iff_of_true trivial rfl
  | plain q' t hq hnone ih =>
    obtain ⟨body, rest, ht, -⟩ := segments_cons t
    rw [segments_quote hq, ht, List.cons.injEq] at hs
    obtain ⟨rfl, rfl⟩ := hs
    have hnext : endsHead q' = true → literalPart t = none := by
      intro hends
      refine hnone.resolve_left fun hcut => ?_
      rw [endsHead, hcut] at hends
      cases hends
    rw [settled_plain _ hnone ht, ← ih q' hnext ht, moved_plain hq hnone, segments_quote hq]
    obtain ⟨first, more, hmoved, -⟩ := segments_cons (moved t)
    rw [hmoved, FreeOfCalls]
    refine and_iff_right ?_
    -- the literal before would have been found
    rintro ⟨hends, hne, -, hopens⟩
    rw [← opensUnit_segments hmoved, opensUnit_moved, opensUnit_segments ht] at hopens
    exact literalPart_ne_none.2 ⟨q', body, rest, by rw [segments_quote hq, ht], hne, hopens⟩ (hp hends)
  | literal q' t x h body ws u rest hq hL ih =>
    obtain ⟨r, rs, hrest, hstop, hsegments, hmoved⟩ := segments_literal hq hL
    rw [hsegments, List.cons.injEq] at hs
    obtain ⟨rfl, rfl⟩ := hs
    have hbody : endsHead (body ++ ' ' :: u) = false := by
      by_contra hne
      obtain ⟨c, hc, hspace⟩ := endsHead_space (Bool.not_eq_false _ ▸ hne)
      have hu : u ≠ [] := by
        rintro rfl
        exact absurd (show [] ∈ intervalUnits from hL.unit) (by decide)
      rw [append_cons, getLast?_append_of_ne_nil _ hu] at hc
      rw [isSpace_of_isWord (isWord_unit hL.unit c (mem_of_getLast? hc))] at hspace
      cases hspace
    have hbehind := ih (body ++ ' ' :: u) (fun h => absurd h (by rw [hbody]; exact Bool.false_ne_true)) hrest
    obtain ⟨first, more, hfirst, -⟩ := segments_cons (moved rest)
    rw [hbody, hfirst] at hbehind
    have hopens : opensUnit first = opensUnit r := by
      rw [← opensUnit_segments hfirst, opensUnit_moved, opensUnit_segments hrest]
    have hstart : endsHead (x ++ intervalStart) = true := endsHead_iff.2 ⟨x, _, rfl, isHead_start, hL.start⟩
    rw [settled_literal _ hL hstop, hmoved, hfirst, FreeOfCalls, FreeOfCalls, hbehind, hstart, hopens,
      opensUnit_body hL.unit, hasCall_append (close_notMem interval_chars),
      hasCall_append (close_notMem (unit_chars hL.unit))]
    have hnone : endsHead p = true → opensUnit body = false := by
      intro hends
      by_contra hne
      refine literalPart_ne_none.2 ⟨_, body, _, hsegments, ?_, Bool.not_eq_false _ ▸ hne⟩ (hp hends)
      rw [hL.segment]
      exact append_ne_nil_of_right_ne_nil x hL.head.ne_nil
    refine and_congr (not_congr ?_) (and_congr (not_congr ?_) Iff.rfl)
    · constructor
      · rintro ⟨hends, -, hcall, hall⟩
        rw [hnone hends, Bool.false_or] at hall
        exact ⟨hends, hcall, hall⟩
      · rintro ⟨hends, hcall, hall⟩
        exact ⟨hends, append_ne_nil_of_right_ne_nil x isHead_start.ne_nil, hcall, by rw [hall, Bool.or_true]⟩
    · constructor
      · rintro ⟨-, -, h⟩
        exact h
      · exact fun h => ⟨rfl, append_ne_nil_of_left_ne_nil hL.body_ne _, h⟩

/-- the first rewrite brings up no call -/
theorem clean_moved (h : ∀ q ∈ segments s, hasCall q = false) : ∀ q ∈ segments (moved s), hasCall q = false := by
  induction s using literal_induction with
  | last q hq => rwa [moved_last hq]
  | plain q t hq hnone ih =>
    rw [segments_quote hq, forall_mem_cons] at h
    rw [moved_plain hq hnone, segments_quote hq, forall_mem_cons]
    exact ⟨h.1, ih h.2⟩
  | literal q t x h' body ws u rest hq hL ih =>
    obtain ⟨r, rs, hrest, hstop, hsegments, hmoved⟩ := segments_literal hq hL
    rw [hsegments, forall_mem_cons, forall_mem_cons, forall_mem_cons, hL.segment,
      hasCall_append (close_notMem hL.head.chars)] at h
    obtain ⟨hx, hbody, hr, hrs⟩ := h
    rw [hmoved, forall_mem_cons, forall_mem_cons, hasCall_append (close_notMem interval_chars),
      hasCall_append (close_notMem (unit_chars hL.unit))]
    refine ⟨hx, hbody, ih ?_⟩
    rw [hrest, forall_mem_cons]
    refine ⟨?_, hrs⟩
    rw [hasCall_eq_false, Pattern.clean_append_iff] at hr
    rw [hasCall_eq_false, ← clean_fresh (.inr hstop)]
    exact hr.2

theorem truncated_eq_self (h : ∀ q ∈ segments s, hasCall q = false) : truncated s = s := by
  induction s using segment_induction with
  | last q hq =>
    rw [segments_last hq, forall_mem_singleton] at h
    exact truncated_clean (hasCall_eq_false.1 h)
  | next q t hq ih =>
    rw [segments_quote hq, forall_mem_cons] at h
    rw [truncated_quote, truncated_clean (hasCall_eq_false.1 h.1), ih h.2]

/-- **Applied twice.** A second pass changes nothing exactly when no literal is left. -/
theorem twice_iff (s : List Char) :
    truncated (moved (truncated (moved s))) = truncated (moved s) ↔ settled s = true := by
  have hclean : ∀ q ∈ segments (truncated (moved s)), hasCall q = false := by
    rw [segments_truncated]
    intro q hq
    obtain ⟨p, hp, hmem⟩ := mem_flatMap.1 hq
    exact (cuts_truncated p (segments_notMem _ p hp)).2 q hmem
  rw [truncated_eq_self (clean_moved hclean), moved_eq_self_iff, free_truncated]
  obtain ⟨q, qs, hsegments, -⟩ := segments_cons s
  have hnil : ∀ l, FreeOfCalls ([] :: l) ↔ FreeOfCalls l := by
    intro l
    match l with
    | [] => exact Iff.rfl
    | [_] => exact Iff.rfl
    | _ :: _ :: _ => exact and_iff_right fun h => nomatch h.1
  have hsettled : settled s = Settled false q qs := by
    rw [settled, show s.splitOn '\'' = q :: qs from hsegments]
  rw [hsettled, ← hnil, freeOfCalls_moved [] s (fun h => nomatch h) hsegments]
  rfl

/-! ## Every text -/

variable (quotes : Char → Option Char) (isUnit : List Char → Bool)

/-- with `quotes` for quoted identifiers and `isUnit` for date units: every `INTERVAL` literal stands in code, every
truncation call stands in code with a date unit for its second argument, and no literal is left behind -/
structure Plain (sql : List Char) : Prop where
  literals : LiteralsOk quotes .code sql
  calls : CallsOk quotes isUnit .code sql
  settled : settled sql = true

/-- **Portable SQL.** Only unquoted `INTERVAL` literals and unit-second truncation calls change, and a second pass
changes nothing, exactly when the text has no others and no literal with two units. -/
theorem portable_iff (sql : List Char) : Portable quotes isUnit sql ↔ Plain quotes isUnit sql := by
  have hchanges : normalizePortableSql sql = rewrittenInCode quotes isUnit sql ↔
      LiteralsOk quotes .code sql ∧ CallsOk quotes isUnit .code sql := changes_iff .code sql
  have htwice : normalizePortableSql (normalizePortableSql sql) = normalizePortableSql sql ↔ settled sql = true :=
    twice_iff sql
  rw [Portable, hchanges, htwice]
  constructor
  · rintro ⟨⟨hliterals, hcalls⟩, hsettled⟩
    exact ⟨hliterals, hcalls, hsettled⟩
  · rintro ⟨hliterals, hcalls, hsettled⟩
    exact ⟨⟨hliterals, hcalls⟩, hsettled⟩

end Passes

/-! ## Texts -/

open scoped Ascii

theorem isWord_of_lower (c : Char) (h : c.toLower.isLower = true ∨ c.toLower = '_') : isWord c = true := by
  by_cases hupper : 65 ≤ c.toNat ∧ c.toNat ≤ 90
  · simp [isWord, Ascii.isWord, Char.isAlphanum, Ascii.isAlpha_eq, Ascii.isUpper_iff.2 hupper]
  · rw [Ascii.toLower_eq c hupper] at h
    rcases h with h | rfl
    · simp [isWord, Ascii.isWord, Char.isAlphanum, Ascii.isAlpha_eq, h]
    · rfl

theorem mem_of_lower (s : String) (c : Char) (h : isSpace c = true ∨ c.toNat < 128 ∧ c.isLower = false)
    (hc : c ∈ (lower s).toList) : c ∈ s.toList := by
  obtain ⟨d, hd, rfl⟩ : ∃ d ∈ s.toList, d.toLower = c := by
    simpa [lower, Ascii.lower] using hc
  have hupper : ¬(65 ≤ d.toNat ∧ d.toNat ≤ 90) := by
    intro hupper
    have hnat := Ascii.toNat_toLower d hupper
    rcases h with hspace | ⟨-, hlower⟩
    · have hfalse := Ascii.isSpace_of_le (c := d.toLower) (by omega)
      rw [show Ascii.isSpace d.toLower = true from hspace] at hfalse
      cases hfalse
    · rw [Ascii.isLower_iff.2 (by omega)] at hlower
      cases hlower
  rw [Ascii.toLower_eq d hupper]
  exact hd

scoped instance : PyRegex where
  fold := Char.toLower
  fold_ascii _ _ := rfl
  isSpace_blank := rfl
  isWord_fold := isWord_of_lower
  mem_lower := mem_of_lower

/-- quoted identifiers of standard SQL -/
def doubleQuotes (c : Char) : Option Char := if c = '"' then some '"' else none

def dateUnits : List (List Char) :=
  ["second", "minute", "hour", "day", "week", "month", "quarter", "year"].map String.toList

/-- a call with its unit first -/
theorem swapped_arguments :
    normalizePortableSql "SELECT DATE_TRUNC(month, created_at)".toList =
      "SELECT DATE_TRUNC('created_at', month)".toList ∧
    ¬Portable doubleQuotes (· ∈ dateUnits) "SELECT DATE_TRUNC(month, created_at)".toList := by
  refine ⟨by decide +kernel, ?_⟩
  rintro ⟨h, -⟩
  revert h
  decide +kernel

end Langbridge.Federation.PortableSql
