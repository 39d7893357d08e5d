/-
Byte streams of tagged messages: numbers in network byte order, texts in UTF-8 ended by a zero byte, and messages that
begin with a tag and their length.

Main results: `readBigEndian_bigEndian`, `zero_mem_encode_iff`, `readFields_eq_some_iff`, `readValues_rawValue`,
`splitFrames_stream`.
-/
import Langbridge.Core.Percent

namespace Langbridge.Core.Frames

open Core.Percent List Option

/-! ## Numbers -/

/-- a number in so many bytes, the most significant first -/
def bigEndian : ℕ → ℕ → List UInt8
  | 0, _ => []
  | k + 1, n => bigEndian k (n / 256) ++ [UInt8.ofNat (n % 256)]

def readBigEndian (bytes : List UInt8) : ℕ := bytes.foldl (fun n b => 256 * n + b.toNat) 0

/-- `struct.pack`, which raises for a number that does not fit -/
def pack (k n : ℕ) : Option (List UInt8) := if n < 256 ^ k then some (bigEndian k n) else none

theorem length_bigEndian (k n : ℕ) : (bigEndian k n).length = k := by
  induction k generalizing n with
  | zero => rfl
  | succ k ih => rw [bigEndian, length_append, ih, length_singleton]

/-- **Numbers that are written** are read again. -/
theorem readBigEndian_bigEndian {k n : ℕ} (h : n < 256 ^ k) : readBigEndian (bigEndian k n) = n := by
  induction k generalizing n with
  | zero =>
    rw [pow_zero, Nat.lt_one_iff] at h
    rw [h]
    rfl
  | succ k ih =>
    have hdiv : n / 256 < 256 ^ k := Nat.div_lt_of_lt_mul (by rwa [pow_succ, mul_comm] at h)
    have hih := ih hdiv
    rw [readBigEndian] at hih
    rw [bigEndian, readBigEndian, foldl_append, hih, foldl_cons, foldl_nil, UInt8.toNat_ofNat']
    omega

theorem pack_eq_some_iff {k n : ℕ} {bytes : List UInt8} :
    pack k n = some bytes ↔ n < 256 ^ k ∧ bytes = bigEndian k n := by
  unfold pack
  split_ifs with h
  · simp [h, eq_comm]
  · simp [h]

/-! ## Texts -/

theorem encode_injective {a b : List Char} (h : encode a = encode b) : a = b := by
  rw [← strictUtf8.decode_encode a, h, strictUtf8.decode_encode]

theorem byte_ne_zero {n : ℕ} (h : 0 < n % 256) : UInt8.ofNat n ≠ 0 := by
  intro hzero
  have hnat := congrArg UInt8.toNat hzero
  exact absurd hnat (Nat.ne_of_gt h)

theorem zero_mem_encodeChar {c : Char} (h : (0 : UInt8) ∈ String.utf8EncodeChar c) : c = Char.ofNat 0 := by
  by_cases hascii : c.toNat < 128
  · rw [encodeChar_ascii hascii, mem_singleton] at h
    have hzero : c.toNat = 0 := by
      by_contra hne
      exact byte_ne_zero (by omega) h.symm
    rw [← Char.ofNat_toNat c, hzero]
  · have hgt : ¬ c.val.toNat ≤ 127 := fun hle => absurd (show c.toNat ≤ 127 from hle) (by omega)
    simp only [String.utf8EncodeChar, if_neg hgt] at h
    -- the bytes of a longer character all have their first bit set
    split_ifs at h <;> simp only [mem_cons, not_mem_nil, or_false] at h
    · rcases h with h | h <;> exact absurd h.symm (byte_ne_zero (by omega))
    · rcases h with h | h | h <;> exact absurd h.symm (byte_ne_zero (by omega))
    · rcases h with h | h | h | h <;> exact absurd h.symm (byte_ne_zero (by omega))

/-- zero bytes come from NUL characters -/
theorem zero_mem_encode_iff (cs : List Char) : (0 : UInt8) ∈ encode cs ↔ Char.ofNat 0 ∈ cs := by
  rw [encode, mem_flatMap]
  constructor
  · rintro ⟨c, hc, hzero⟩
    rwa [← zero_mem_encodeChar hzero]
  · exact fun h => ⟨_, h, by decide⟩

/-! ## Texts with a fixed part -/

/-- the text before the first zero byte, and what follows it -/
def readText : List UInt8 → Option (List UInt8 × List UInt8)
  | [] => none
  | b :: bs => if b = 0 then some ([], bs) else (readText bs).map fun r => (b :: r.1, r.2)

/-- a text, its zero byte and a fixed part -/
def fieldBytes (field : List UInt8 × List UInt8) : List UInt8 := field.1 ++ 0 :: field.2

/-- the texts of so many fields with fixed parts of `width` bytes, which take all bytes -/
def readFields (width : ℕ) : ℕ → List UInt8 → Option (List (List UInt8))
  | 0, bytes => if bytes = [] then some [] else none
  | k + 1, bytes =>
    (readText bytes).bind fun r =>
      if r.2.length < width then none else (readFields width k (r.2.drop width)).map (r.1 :: ·)

theorem readText_append {text : List UInt8} (h : 0 ∉ text) (more : List UInt8) :
    readText (text ++ 0 :: more) = some (text, more) := by
  induction text with
  | nil => rfl
  | cons b bs ih =>
    have hb : b ≠ 0 := fun hzero => h (hzero ▸ mem_cons_self)
    rw [cons_append, readText, if_neg hb, ih fun hmem => h (mem_cons_of_mem _ hmem), map_some]

theorem readFields_append {width k : ℕ} {text fixed : List UInt8} (htext : 0 ∉ text) (hfixed : width ≤ fixed.length)
    (more : List UInt8) : readFields width (k + 1) (text ++ 0 :: (fixed ++ more)) =
      (readFields width k (fixed.drop width ++ more)).map (text :: ·) := by
  have hlong : ¬ (fixed ++ more).length < width := by
    rw [length_append]
    omega
  rw [readFields, readText_append htext, bind_some, if_neg hlong, drop_append_of_le_length hfixed]

/-- no zero byte comes before the first one -/
theorem length_le_of_first_zero {a b text rest : List UInt8} (htext : 0 ∉ text) (h : a ++ 0 :: b = text ++ 0 :: rest) :
    b.length ≤ rest.length := by
  rcases append_eq_append_iff.1 h with ⟨more, rfl, hmore⟩ | ⟨more, rfl, hmore⟩
  · cases more with
    | nil =>
      rw [(List.cons.inj hmore).2]
    | cons c more =>
      rw [(List.cons.inj hmore).1] at htext
      exact absurd (mem_append_right a mem_cons_self) htext
  · have hcount := congrArg List.length hmore
    simp only [length_append, length_cons] at hcount
    omega

/-- a reader that is behind stays behind, for every fixed part ends in a zero byte -/
theorem readFields_behind {width : ℕ} (fields : List (List UInt8 × List UInt8))
    (hfixed : ∀ f ∈ fields, f.2.length = width ∧ f.2.getLast? = some 0) {unread : List UInt8}
    (hunread : unread = [] ∨ unread.getLast? = some 0) {texts : List (List UInt8)}
    (h : readFields width fields.length (unread ++ fields.flatMap fieldBytes) = some texts) :
    unread = [] ∧ texts = fields.map Prod.fst ∧ ∀ f ∈ fields, 0 ∉ f.1 := by
  induction fields generalizing unread texts with
  | nil =>
    rw [flatMap_nil, append_nil, length_nil, readFields] at h
    split_ifs at h with hnil
    exact ⟨hnil, (Option.some.inj h).symm, forall_mem_nil _⟩
  | cons f fields ih =>
    rcases forall_mem_cons.1 hfixed with ⟨⟨hwidth, hlast⟩, hfixed⟩
    have hne : f.2 ≠ [] := by
      rintro hnil
      simp [hnil] at hlast
    -- the first zero byte that is left, and the bytes after it that belong to this field
    obtain ⟨text, rest, hsplit, htext⟩ :
        ∃ text rest, unread ++ fieldBytes f = text ++ 0 :: rest ∧ 0 ∉ text :=
      eq_append_cons_of_mem (mem_append_right _ (mem_append_right _ mem_cons_self))
    have hend : (unread ++ fieldBytes f).getLast? = some 0 := by
      rw [fieldBytes, ← append_assoc, ← singleton_append, ← append_assoc,
        getLast?_append_of_ne_nil _ hne, hlast]
    have hsame : (unread ++ f.1) ++ 0 :: f.2 = text ++ 0 :: rest := by rw [← hsplit, fieldBytes, append_assoc]
    have hlength : width ≤ rest.length := hwidth ▸ length_le_of_first_zero htext hsame
    rw [flatMap_cons, ← append_assoc, hsplit, append_assoc, cons_append, length_cons,
      readFields_append htext hlength] at h
    obtain ⟨more, hmore, rfl⟩ := map_eq_some_iff.1 h
    have hbehind : rest.drop width = [] ∨ (rest.drop width).getLast? = some 0 := by
      by_cases hdrop : rest.drop width = []
      · exact .inl hdrop
      · rw [hsplit, ← take_append_drop width rest, ← singleton_append, ← append_assoc,
          ← append_assoc, getLast?_append_of_ne_nil _ hdrop] at hend
        exact .inr hend
    rcases ih hfixed hbehind hmore with ⟨hdrop, rfl, hclean⟩
    have hexact : f.2.length = rest.length := by
      rw [hwidth]
      exact le_antisymm hlength (drop_eq_nil_iff.1 hdrop)
    have htexts : unread ++ f.1 = text := (append_inj' hsame (by simp [hexact])).1
    have hunread' : unread = [] := by
      refine hunread.resolve_right fun hzero => htext ?_
      rw [← htexts]
      exact mem_append_left _ (mem_of_getLast? hzero)
    rw [hunread', nil_append] at htexts
    exact ⟨hunread', by rw [map_cons, htexts], forall_mem_cons.2 ⟨htexts ▸ htext, hclean⟩⟩

/-- **Fields are read as they were written** exactly if no text has a zero byte. -/
theorem readFields_eq_some_iff {width : ℕ} (fields : List (List UInt8 × List UInt8))
    (hfixed : ∀ f ∈ fields, f.2.length = width ∧ f.2.getLast? = some 0) (texts : List (List UInt8)) :
    readFields width fields.length (fields.flatMap fieldBytes) = some texts ↔
      texts = fields.map Prod.fst ∧ ∀ f ∈ fields, 0 ∉ f.1 := by
  refine ⟨fun h => (readFields_behind fields hfixed (.inl rfl) h).2, ?_⟩
  rintro ⟨rfl, hclean⟩
  induction fields with
  | nil => rfl
  | cons f fields ih =>
    rcases forall_mem_cons.1 hfixed with ⟨⟨hwidth, -⟩, hfixed⟩
    rcases forall_mem_cons.1 hclean with ⟨hf, hclean⟩
    have hnil : f.2.drop width = [] := by rw [← hwidth, drop_length]
    rw [flatMap_cons, fieldBytes, append_assoc, cons_append, length_cons,
      readFields_append hf hwidth.ge, hnil, nil_append, ih hfixed hclean]
    rfl

/-! ## Values with their lengths -/

def valueBytes : Option (List UInt8) → Option (List UInt8)
  | none => some (bigEndian 4 0xFFFFFFFF)
  | some v => (pack 4 v.length).map (· ++ v)

def readValues : ℕ → List UInt8 → Option (List (Option (List UInt8)))
  | 0, bytes => if bytes = [] then some [] else none
  | k + 1, bytes =>
    let n := readBigEndian (bytes.take 4)
    if bytes.length < 4 then none
    else if n = 0xFFFFFFFF then (readValues k (bytes.drop 4)).map (none :: ·)
    else if n ≤ (bytes.drop 4).length then
      (readValues k ((bytes.drop 4).drop n)).map (some ((bytes.drop 4).take n) :: ·)
    else none

/-- the bytes of a value whose length fits -/
def rawValue : Option (List UInt8) → List UInt8
  | none => bigEndian 4 0xFFFFFFFF
  | some v => bigEndian 4 v.length ++ v

theorem valueBytes_eq_some_iff (v : Option (List UInt8)) (bytes : List UInt8) :
    valueBytes v = some bytes ↔ (v.getD []).length < 256 ^ 4 ∧ bytes = rawValue v := by
  cases v with
  | none => simp [valueBytes, rawValue, eq_comm]
  | some v =>
    rw [valueBytes, map_eq_some_iff]
    constructor
    · rintro ⟨length, hlength, rfl⟩
      rcases pack_eq_some_iff.1 hlength with ⟨hfits, rfl⟩
      exact ⟨hfits, rfl⟩
    · rintro ⟨hfits, rfl⟩
      exact ⟨_, pack_eq_some_iff.2 ⟨hfits, rfl⟩, rfl⟩

theorem length_rawValue (v : Option (List UInt8)) : (rawValue v).length = 4 + (v.getD []).length := by
  cases v with
  | none => exact length_bigEndian _ _
  | some v => rw [rawValue, length_append, length_bigEndian, getD_some]

theorem readValues_append {v : Option (List UInt8)} (hshort : (v.getD []).length < 0xFFFFFFFF) (k : ℕ)
    (more : List UInt8) : readValues (k + 1) (rawValue v ++ more) = (readValues k more).map (v :: ·) := by
  have hfour : ∀ (n : ℕ) (tail : List UInt8), (bigEndian 4 n ++ tail).take 4 = bigEndian 4 n ∧
      (bigEndian 4 n ++ tail).drop 4 = tail ∧ ¬ (bigEndian 4 n ++ tail).length < 4 := by
    intro n tail
    refine ⟨take_left' (length_bigEndian _ _), drop_left' (length_bigEndian _ _), ?_⟩
    rw [length_append, length_bigEndian]
    omega
  cases v with
  | none =>
    obtain ⟨htake, hdrop, hlong⟩ := hfour 0xFFFFFFFF more
    rw [rawValue, readValues, htake, hdrop, if_neg hlong, readBigEndian_bigEndian (by norm_num), if_pos rfl]
  | some v =>
    obtain ⟨htake, hdrop, hlong⟩ := hfour v.length (v ++ more)
    have hne : v.length < 0xFFFFFFFF := hshort
    have hfits : v.length < 256 ^ 4 := hne.trans (by norm_num)
    have hfit : v.length ≤ (v ++ more).length := by simp
    rw [rawValue, append_assoc, readValues, htake, hdrop, if_neg hlong, readBigEndian_bigEndian hfits,
      if_neg hne.ne, if_pos hfit, take_left, drop_left]

/-- **Values are read as they were written**, if none is as long as no value. -/
theorem readValues_rawValue (values : List (Option (List UInt8)))
    (hshort : ∀ v ∈ values, (v.getD []).length < 0xFFFFFFFF) :
    readValues values.length (values.flatMap rawValue) = some values := by
  induction values with
  | nil => rfl
  | cons v values ih =>
    rcases forall_mem_cons.1 hshort with ⟨hv, hshort⟩
    rw [flatMap_cons, length_cons, readValues_append hv, ih hshort]
    rfl

/-! ## Counts -/

/-- so many things after their number -/
def readCounted {α : Type} (read : ℕ → List UInt8 → Option α) (body : List UInt8) : Option α :=
  if body.length < 2 then none else read (readBigEndian (body.take 2)) (body.drop 2)

theorem readCounted_append {α : Type} (read : ℕ → List UInt8 → Option α) {n : ℕ} (h : n < 256 ^ 2) (rest : List UInt8) :
    readCounted read (bigEndian 2 n ++ rest) = read n rest := by
  have hlong : ¬ (bigEndian 2 n ++ rest).length < 2 := by
    rw [length_append, length_bigEndian]
    omega
  rw [readCounted, if_neg hlong, take_left' (length_bigEndian _ _), drop_left' (length_bigEndian _ _),
    readBigEndian_bigEndian h]

/-- writers that fail for some elements -/
theorem mapM_eq_some_iff {α β : Type} {f : α → Option β} {g : α → β} {ok : α → Prop}
    (h : ∀ a b, f a = some b ↔ ok a ∧ b = g a) (l : List α) (bs : List β) :
    l.mapM f = some bs ↔ (∀ a ∈ l, ok a) ∧ bs = l.map g := by
  have hmap : List.Forall₂ (fun a b => b = g a) l bs ↔ bs = l.map g := by
    rw [← List.forall₂_eq_eq_eq, List.forall₂_map_right_iff]
    exact ⟨List.Forall₂.flip, List.Forall₂.flip⟩
  simp only [mapM_some_iff, h, List.forall₂_and_left, hmap]

/-! ## Messages -/

/-- a message with its tag and its length, which counts itself -/
def frame (message : UInt8 × List UInt8) : Option (List UInt8) :=
  (pack 4 (message.2.length + 4)).map fun length => message.1 :: (length ++ message.2)

/-- the messages of a stream; lengths are signed -/
def splitFrames : List UInt8 → Option (List (UInt8 × List UInt8))
  | [] => some []
  | tag :: rest =>
    let n := readBigEndian (rest.take 4)
    if 4 ≤ n ∧ n < 2 ^ 31 ∧ n ≤ rest.length then
      (splitFrames (rest.drop n)).map ((tag, (rest.drop 4).take (n - 4)) :: ·)
    else none
termination_by bytes => bytes.length
decreasing_by simp

/-- the bytes of some messages -/
def stream (messages : List (UInt8 × List UInt8)) : Option (List UInt8) := (messages.mapM frame).map List.flatten

theorem splitFrames_frame {message : UInt8 × List UInt8} {bytes : List UInt8} (h : frame message = some bytes)
    (more : List UInt8) : splitFrames (bytes ++ more) =
      if message.2.length + 4 < 2 ^ 31 then (splitFrames more).map (message :: ·) else none := by
  obtain ⟨length, hlength, rfl⟩ := map_eq_some_iff.1 h
  obtain ⟨hfits, rfl⟩ := pack_eq_some_iff.1 hlength
  have htake : (bigEndian 4 (message.2.length + 4) ++ message.2 ++ more).take 4 =
      bigEndian 4 (message.2.length + 4) := by
    rw [append_assoc, take_left' (length_bigEndian _ _)]
  have hdrop : (bigEndian 4 (message.2.length + 4) ++ message.2 ++ more).drop 4 = message.2 ++ more := by
    rw [append_assoc, drop_left' (length_bigEndian _ _)]
  have hrest : (bigEndian 4 (message.2.length + 4) ++ message.2 ++ more).drop (message.2.length + 4) = more := by
    refine drop_left' ?_
    rw [length_append, length_bigEndian, add_comm]
  rw [cons_append, splitFrames, htake, readBigEndian_bigEndian hfits, hdrop, hrest, Nat.add_sub_cancel,
    take_left]
  by_cases hshort : message.2.length + 4 < 2 ^ 31
  · rw [if_pos hshort, if_pos]
    rw [length_append, length_append, length_bigEndian]
    omega
  · rw [if_neg hshort, if_neg]
    exact fun hall => hshort hall.2.1

theorem exists_frame {message : UInt8 × List UInt8} (h : message.2.length + 4 < 2 ^ 31) :
    ∃ bytes, frame message = some bytes := by
  refine ⟨message.1 :: (bigEndian 4 (message.2.length + 4) ++ message.2), ?_⟩
  rw [frame, pack, if_pos (lt_trans h (by norm_num))]
  rfl

theorem stream_cons (m : UInt8 × List UInt8) (ms : List (UInt8 × List UInt8)) :
    stream (m :: ms) = (frame m).bind fun bytes => (stream ms).map (bytes ++ ·) := by
  rw [stream, mapM_cons, stream]
  cases frame m with
  | none => rfl
  | some bytes =>
    cases ms.mapM frame with
    | none => rfl
    | some more => rfl

/-- **A stream of messages** is split into them exactly if none is too long. -/
theorem splitFrames_stream (messages : List (UInt8 × List UInt8)) :
    ((stream messages).bind splitFrames) =
      if ∀ m ∈ messages, m.2.length + 4 < 2 ^ 31 then some messages else none := by
  induction messages with
  | nil => simp [stream, splitFrames]
  | cons m ms ih =>
    rw [stream_cons]
    simp only [forall_mem_cons]
    by_cases hshort : m.2.length + 4 < 2 ^ 31
    · obtain ⟨bytes, hbytes⟩ := exists_frame hshort
      have hsplit : ((stream ms).map (bytes ++ ·)).bind splitFrames =
          ((stream ms).bind splitFrames).map (m :: ·) := by
        cases stream ms with
        | none => rfl
        | some more => exact (splitFrames_frame hbytes more).trans (if_pos hshort)
      rw [hbytes, bind_some, hsplit, ih]
      by_cases hall : ∀ m ∈ ms, m.2.length + 4 < 2 ^ 31
      · rw [if_pos hall, if_pos ⟨hshort, hall⟩]
        rfl
      · rw [if_neg hall, if_neg fun h => hall h.2]
        rfl
    · rw [if_neg fun h => hshort h.1]
      cases hbytes : frame m with
      | none => rfl
      | some bytes =>
        cases stream ms with
        | none => rfl
        | some more => exact (splitFrames_frame hbytes more).trans (if_neg hshort)

end Langbridge.Core.Frames
