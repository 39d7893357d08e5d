/-
Percent-encoding over UTF-8, as `urllib.parse` does it: `quote` writes every byte that is not an unreserved character or
`/` as `%XX`, and `unquote` reads such triples back in every run of ASCII characters.

Decoding bytes that are not UTF-8 is left to the parameter `Utf8`, whose law is that it reads back what was encoded.

Main results: `unquote_quote`, `quote_eq_self_iff`, `quote_eq_append`, `quote_ne_append`.
-/
import Langbridge.Core.Text
import Mathlib.Data.List.SplitBy
import Mathlib.Data.List.TakeWhile

namespace Langbridge.Core.Percent

open List

/-! ## Quoting -/

/-- the characters that `quote` leaves as they are -/
def safe (c : Char) : Bool := c.isAlphanum || c = '_' || c = '.' || c = '-' || c = '~' || c = '/'

def hexDigit (n : ℕ) : Char := Char.ofNat (if n < 10 then 48 + n else 55 + n)

/-- the value of a hexadecimal digit, in either case -/
def hexValue (c : Char) : Option ℕ :=
  if 48 ≤ c.toNat ∧ c.toNat ≤ 57 then some (c.toNat - 48)
  else if 65 ≤ c.toNat ∧ c.toNat ≤ 70 then some (c.toNat - 55)
  else if 97 ≤ c.toNat ∧ c.toNat ≤ 102 then some (c.toNat - 87)
  else none

/-- the character of a byte -/
def latin (b : UInt8) : Char := Char.ofNat b.toNat

def quoteByte (b : UInt8) : List Char :=
  if safe (latin b) then [latin b] else ['%', hexDigit (b.toNat / 16), hexDigit (b.toNat % 16)]

def quoteChar (c : Char) : List Char := (String.utf8EncodeChar c).flatMap quoteByte

/-- `quote(text)` -/
def quote (cs : List Char) : List Char := cs.flatMap quoteChar

def encode (cs : List Char) : List UInt8 := cs.flatMap String.utf8EncodeChar

theorem quote_encode (cs : List Char) : quote cs = (encode cs).flatMap quoteByte := by
  rw [quote, encode, flatMap_assoc]
  rfl

@[simp] theorem quote_cons (c : Char) (cs : List Char) : quote (c :: cs) = quoteChar c ++ quote cs := rfl

@[simp] theorem quote_append (cs cs' : List Char) : quote (cs ++ cs') = quote cs ++ quote cs' := flatMap_append

variable {c : Char}

theorem safe_visible (h : safe c = true) : 33 ≤ c.toNat ∧ c.toNat ≤ 126 := by
  simp only [safe, Bool.or_eq_true, decide_eq_true_eq] at h
  rcases h with ((((h | rfl) | rfl) | rfl) | rfl) | rfl
  · have hbounds := alphanum_bounds h
    omega
  all_goals decide

theorem safe_ascii (h : safe c = true) : c.toNat < 128 := by
  have hvisible := safe_visible h
  omega

theorem encodeChar_ascii (h : c.toNat < 128) : String.utf8EncodeChar c = [UInt8.ofNat c.toNat] := by
  have hle : c.val.toNat ≤ 127 := Nat.le_of_lt_succ h
  simp only [String.utf8EncodeChar, if_pos hle]
  rfl

theorem latin_ascii (h : c.toNat < 128) : latin (UInt8.ofNat c.toNat) = c := by
  have hmod : c.toNat % 256 = c.toNat := Nat.mod_eq_of_lt (by omega)
  simp [latin, hmod, Char.ofNat_toNat]

theorem quoteChar_safe (h : safe c = true) : quoteChar c = [c] := by
  have hascii := safe_ascii h
  simp [quoteChar, encodeChar_ascii hascii, quoteByte, latin_ascii hascii, h]

/-- the character of a byte that no ASCII character is encoded by -/
theorem safe_latin {b : UInt8} (h : 128 ≤ b.toNat) : safe (latin b) = false := by
  by_contra hne
  have hlt := safe_ascii (by simpa using hne)
  have hvalid : b.toNat.isValidChar := .inl (lt_of_lt_of_le b.toNat_lt (by decide))
  rw [latin, Char.ofNat, dif_pos hvalid] at hlt
  exact absurd (show b.toNat < 128 from hlt) (by omega)

theorem encodeChar_head (h : 128 ≤ c.toNat) : ∃ b bs, String.utf8EncodeChar c = b :: bs ∧ 128 ≤ b.toNat := by
  have hgt : ¬ c.val.toNat ≤ 127 := fun hle => absurd (show c.toNat ≤ 127 from hle) (by omega)
  simp only [String.utf8EncodeChar, if_neg hgt]
  split_ifs
  · exact ⟨_, _, rfl, by simp only [UInt8.toNat_ofNat']; omega⟩
  · exact ⟨_, _, rfl, by simp only [UInt8.toNat_ofNat']; omega⟩
  · exact ⟨_, _, rfl, by simp only [UInt8.toNat_ofNat']; omega⟩

/-- an unsafe character begins with a triple -/
theorem quoteChar_unsafe (h : safe c = false) : ∃ x y rest, quoteChar c = '%' :: x :: y :: rest := by
  by_cases hascii : c.toNat < 128
  · exact ⟨_, _, [], by simp [quoteChar, encodeChar_ascii hascii, quoteByte, latin_ascii hascii, h]; exact ⟨rfl, rfl⟩⟩
  · obtain ⟨b, bs, henc, hb⟩ := encodeChar_head (Nat.le_of_not_lt hascii)
    exact ⟨_, _, _, by rw [quoteChar, henc, flatMap_cons, quoteByte, if_neg (by simp [safe_latin hb])]; rfl⟩

/-! ## What a quoted text is made of -/

theorem hexDigit_safe : ∀ n < 16, safe (hexDigit n) = true := by decide

theorem mem_quoteByte {b : UInt8} (h : c ∈ quoteByte b) : safe c = true ∨ c = '%' := by
  have hlt := b.toNat_lt
  unfold quoteByte at h
  split_ifs at h with hs
  · rw [mem_singleton.1 h]
    exact .inl hs
  · rcases mem_cons.1 h with rfl | h
    · exact .inr rfl
    · rcases mem_cons.1 h with rfl | h
      · exact .inl (hexDigit_safe _ (by omega))
      · rw [mem_singleton.1 h]
        exact .inl (hexDigit_safe _ (by omega))

variable {cs : List Char}

theorem mem_quote (h : c ∈ quote cs) : safe c = true ∨ c = '%' := by
  rw [quote_encode] at h
  obtain ⟨b, _, hb⟩ := mem_flatMap.1 h
  exact mem_quoteByte hb

/-- a character that is neither safe nor a percent sign stands in no quoted text -/
theorem not_mem_quote (h : safe c = false) (hp : c ≠ '%') (cs : List Char) : c ∉ quote cs := fun hc =>
  (mem_quote hc).elim (fun hs => by simp [h] at hs) hp

theorem length_quoteChar_pos (c : Char) : 0 < (quoteChar c).length := by
  cases hc : safe c with
  | true => simp [quoteChar_safe hc]
  | false =>
    obtain ⟨x, y, rest, hq⟩ := quoteChar_unsafe hc
    simp [hq]

theorem length_le_quote (cs : List Char) : cs.length ≤ (quote cs).length := by
  induction cs with
  | nil => exact Nat.zero_le _
  | cons c cs ih =>
    have hpos := length_quoteChar_pos c
    simp only [quote_cons, length_append, length_cons]
    omega

theorem quote_of_safe (h : ∀ c ∈ cs, safe c = true) : quote cs = cs := by
  induction cs with
  | nil => rfl
  | cons c cs ih =>
    rw [quote_cons, quoteChar_safe (h c (by simp)), ih fun d hd => h d (by simp [hd])]
    rfl

/-- quoting changes a text unless all its characters are safe -/
theorem quote_eq_self_iff (cs : List Char) : quote cs = cs ↔ ∀ c ∈ cs, safe c = true := by
  refine ⟨fun h => ?_, quote_of_safe⟩
  induction cs with
  | nil => simp
  | cons c cs ih =>
    cases hc : safe c with
    | true =>
      rw [quote_cons, quoteChar_safe hc, singleton_append, List.cons.injEq] at h
      simpa [hc] using ih h.2
    | false =>
      obtain ⟨x, y, rest, hq⟩ := quoteChar_unsafe hc
      have hlength := congrArg List.length h
      have hle := length_le_quote cs
      simp only [quote_cons, hq, length_append, length_cons] at hlength
      omega

/-- a safe beginning of a quoted text stands in the text itself -/
theorem quote_eq_append {pre cs t : List Char} (hpre : ∀ c ∈ pre, safe c = true) (h : quote cs = pre ++ t) :
    ∃ cs', cs = pre ++ cs' ∧ quote cs' = t := by
  induction pre generalizing cs with
  | nil => exact ⟨cs, rfl, h⟩
  | cons p pre ih =>
    have hp : safe p = true := hpre p (by simp)
    cases cs with
    | nil => cases h
    | cons c cs =>
      cases hc : safe c with
      | true =>
        rw [quote_cons, quoteChar_safe hc, singleton_append, cons_append, List.cons.injEq] at h
        obtain ⟨cs', rfl, ht⟩ := ih (fun d hd => hpre d (by simp [hd])) h.2
        exact ⟨cs', by rw [h.1]; rfl, ht⟩
      | false =>
        obtain ⟨x, y, rest, hq⟩ := quoteChar_unsafe hc
        rw [quote_cons, hq, cons_append, cons_append (a := p), List.cons.injEq] at h
        rw [← h.1] at hp
        exact absurd hp (by decide)

/-- quoting never puts a safe text before the whole text -/
theorem quote_ne_append {pre : List Char} (hpre : ∀ c ∈ pre, safe c = true) (hne : pre ≠ []) :
    ∀ cs : List Char, quote cs ≠ pre ++ cs := by
  intro cs
  induction hn : cs.length using Nat.strong_induction_on generalizing cs with
  | _ n ih =>
    intro h
    obtain ⟨cs', hcs, hquote⟩ := quote_eq_append hpre h
    have hlength : cs'.length < n := by
      have hpos := length_pos_iff.2 hne
      rw [← hn, hcs, length_append]
      omega
    exact ih _ hlength cs' rfl (hquote.trans hcs)

/-! ## Reading back -/

/-- `unquote_to_bytes` on ASCII text: the percent sign of a triple that is none stands for itself -/
def unquoteToBytes : List Char → List UInt8
  | [] => []
  | '%' :: x :: y :: cs =>
    match hexValue x, hexValue y with
    | some m, some n => UInt8.ofNat (16 * m + n) :: unquoteToBytes cs
    | _, _ => UInt8.ofNat '%'.toNat :: unquoteToBytes (x :: y :: cs)
  | c :: cs => UInt8.ofNat c.toNat :: unquoteToBytes cs

structure Utf8 where
  decode : List UInt8 → List Char
  decode_encode : ∀ cs, decode (encode cs) = cs

def isAscii (c : Char) : Bool := c.toNat < 128

def unquote (U : Utf8) (text : List Char) : List Char :=
  if '%' ∈ text then
    (text.splitBy fun c d => isAscii c == isAscii d).flatMap fun run =>
      if run.all isAscii then U.decode (unquoteToBytes run) else run
  else text

theorem hexValue_hexDigit : ∀ n < 16, hexValue (hexDigit n) = some n := by decide

theorem unquoteToBytes_quoteByte (b : UInt8) (cs : List Char) :
    unquoteToBytes (quoteByte b ++ cs) = b :: unquoteToBytes cs := by
  have hlt := b.toNat_lt
  unfold quoteByte
  split_ifs with hs
  · have hne : latin b ≠ '%' := fun h => absurd (h ▸ hs) (by decide)
    have hvalid : b.toNat.isValidChar := .inl (lt_of_lt_of_le hlt (by decide))
    have hbyte : UInt8.ofNat (latin b).toNat = b := by
      rw [latin, Char.ofNat, dif_pos hvalid]
      exact UInt8.ofNat_toNat
    rw [singleton_append, unquoteToBytes.eq_3 _ _ (fun _ _ _ h _ => hne h), hbyte]
  · rw [cons_append, cons_append, singleton_append, unquoteToBytes,
      hexValue_hexDigit _ (by omega), hexValue_hexDigit _ (by omega)]
    have hbyte : 16 * (b.toNat / 16) + b.toNat % 16 = b.toNat := by omega
    simp only [hbyte, UInt8.ofNat_toNat]

theorem unquoteToBytes_quoteBytes (bs : List UInt8) : unquoteToBytes (bs.flatMap quoteByte) = bs := by
  induction bs with
  | nil => rfl
  | cons b bs ih => rw [flatMap_cons, unquoteToBytes_quoteByte, ih]

theorem quote_ascii (cs : List Char) : ∀ c ∈ quote cs, isAscii c = true := by
  intro c hc
  rcases mem_quote hc with hs | rfl
  · simpa [isAscii] using safe_ascii hs
  · decide

/-- a text whose characters are all ASCII is one run -/
theorem splitBy_ascii {t : List Char} (hne : t ≠ []) (h : ∀ c ∈ t, isAscii c = true) :
    (t.splitBy fun c d => isAscii c == isAscii d) = [t] := by
  refine splitBy_of_isChain hne (List.Pairwise.isChain ?_)
  exact Pairwise.imp_of_mem (fun hc hd _ => by simp [h _ hc, h _ hd]) (pairwise_of_forall fun _ _ => trivial)

theorem safe_of_not_mem (h : '%' ∉ quote cs) : ∀ c ∈ cs, safe c = true := by
  intro c hc
  by_contra hs
  obtain ⟨x, y, rest, hq⟩ := quoteChar_unsafe (by simpa using hs)
  exact h (mem_flatMap.2 ⟨c, hc, by simp [hq]⟩)

theorem unquote_quote (U : Utf8) (cs : List Char) : unquote U (quote cs) = cs := by
  unfold unquote
  split_ifs with hp
  · have hne : quote cs ≠ [] := ne_nil_of_mem hp
    have hall : (quote cs).all isAscii = true := all_eq_true.2 (quote_ascii cs)
    rw [splitBy_ascii hne (quote_ascii cs), flatMap_cons, flatMap_nil, append_nil, if_pos hall,
      quote_encode, unquoteToBytes_quoteBytes, U.decode_encode]
  · exact quote_of_safe (safe_of_not_mem hp)

/-! ## A decoder -/

/-- the strict decoder, which gives nothing for what is not UTF-8 -/
def strictUtf8 : Utf8 where
  decode bs := ((ByteArray.utf8Decode? bs.toByteArray).map Array.toList).getD []
  decode_encode cs := by
    have henc : (encode cs).toByteArray = cs.utf8Encode := rfl
    simp [henc]

end Langbridge.Core.Percent
