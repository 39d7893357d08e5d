/-
Row limits of previews (`runtime/utils/sql.py`). `enforce_preview_limit` reads a limit back only where it is a number
under `LIMIT` or `TOP`; any other limit it replaces with its own.

sqlglot is a parameter (`SqlGlot`), and so is the source (`SqlSource`); `Agree` says what the code relies on.
-/
import Langbridge.Runtime.SqlGuards

namespace Langbridge.Runtime.PreviewLimit

open Core Runtime.SqlGuards List Option

/-! ## Limits -/

inductive RowCount (E : Type) where
  | number (text : String)
  | other (e : E)

/-- `exp.LimitOptions` -/
structure LimitOptions where
  percent : Bool
  withTies : Bool

/-- the `limit` of a query: `exp.Limit` (of `LIMIT` and `TOP`) or `exp.Fetch`, whose count may be left out -/
inductive LimitNode (E : Type) where
  | limit (count : RowCount E) (options : LimitOptions)
  | fetch (count : Option (RowCount E)) (options : LimitOptions)

/-- a select or a set operation, its limit and offset apart -/
structure ParsedQuery (B E : Type) where
  body : B
  limit : Option (LimitNode E)
  offset : Option (RowCount E)

/-- `sqlglot.parse_one`, with `none` for a `ParseError`, and `Expression.sql` -/
structure SqlGlot (B E : Type) where
  parseOne : String → String → Option (ParsedQuery B E)
  sql : ParsedQuery B E → String → String

/-- `int` of a number token: digits, with single underscores between them -/
def intOf (text : String) : Option ℕ :=
  let groups := text.toList.splitOn '_'
  if groups.all fun g => !g.isEmpty && g.all Char.isDigit then some (Nat.ofDigitChars 10 groups.flatten 0) else none

variable {B E Row : Type}

def readLimit (q : ParsedQuery B E) : Option ℕ :=
  match q.limit with
  | some (.limit (.number text) _) => intOf text
  | _ => none

/-- `exp.Limit(expression=exp.Literal.number(max_rows))` -/
def previewLimit (maxRows : ℕ) : LimitNode E := .limit (.number (toString maxRows)) ⟨false, false⟩

section Enforce

variable [PyText]

/-- `query.strip().rstrip(";")` -/
def trimmed (query : String) : String :=
  String.ofList (((PyText.strip query).toList.reverse.dropWhile (· = ';')).reverse)

/-- the text around a query that cannot be parsed -/
def wrapped (dialect query : String) (maxRows : ℕ) : String :=
  if dialect = "tsql" then
    "SELECT TOP " ++ toString maxRows ++ " * FROM (" ++ trimmed query ++ ") AS langbridge_sql_preview"
  else "SELECT * FROM (" ++ trimmed query ++ ") AS langbridge_sql_preview LIMIT " ++ toString maxRows

def enforcePreviewLimit (G : SqlGlot B E) (query : String) (maxRows : ℕ) (dialect : String) :
    Except String (String × ℕ) :=
  if maxRows < 1 then throw "max_rows must be greater than zero."
  else
    let sqlglotDialect := normalizeSqlDialect (some dialect)
    match G.parseOne query sqlglotDialect with
    | none => return (wrapped sqlglotDialect query maxRows, maxRows)
    | some q =>
      match readLimit q with
      | some limit =>
        if limit ≤ maxRows then return (G.sql q sqlglotDialect, limit)
        else return (G.sql { q with limit := some (previewLimit maxRows) } sqlglotDialect, maxRows)
      | none => return (G.sql { q with limit := some (previewLimit maxRows) } sqlglotDialect, maxRows)

end Enforce

/-! ## Rows -/

/-- what a source makes of texts and queries: `none` is an error of the source, or no bound for a count (`NULL`, `ALL`);
`derived` are the rows of a text that stands in the parentheses of a derived table -/
structure SqlSource (B E Row : Type) where
  run : String → Option (List Row)
  rows : B → Option (List Row)
  derived : String → Option (List Row)
  count : RowCount E → Option ℕ
  share : RowCount E → ℕ → ℕ
  tied : B → Row → Row → Bool

namespace SqlSource

variable (S : SqlSource B E Row)

/-- the rows that a count allows, of so many; a missing count is one row -/
def bound (options : LimitOptions) (total : ℕ) : Option (RowCount E) → Option ℕ
  | none => some 1
  | some count => if options.percent then some (S.share count total) else S.count count

/-- the first `n` rows, and with `WITH TIES` those that tie with the last of them -/
def firstRows (options : LimitOptions) (b : B) (rest : List Row) (n : ℕ) : List Row :=
  if options.withTies then
    match (rest.take n).getLast? with
    | none => []
    | some last => rest.take n ++ (rest.drop n).takeWhile (S.tied b last)
  else rest.take n

/-- the rows that a limit leaves of the rows after the offset -/
def keep (b : B) (total : ℕ) (rest : List Row) : Option (LimitNode E) → List Row
  | none => rest
  | some (.limit count options) => ((S.bound options total (some count)).map (S.firstRows options b rest)).getD rest
  | some (.fetch count options) => ((S.bound options total count).map (S.firstRows options b rest)).getD rest

def afterOffset (q : ParsedQuery B E) (all : List Row) : List Row := all.drop ((q.offset.bind S.count).getD 0)

def limited (q : ParsedQuery B E) (all : List Row) : List Row :=
  S.keep q.body all.length (S.afterOffset q all) q.limit

def yields (q : ParsedQuery B E) : Option (List Row) := (S.rows q.body).map (S.limited q)

theorem firstRows_prefix (options : LimitOptions) (b : B) (rest : List Row) (n : ℕ) :
    S.firstRows options b rest n <+: rest := by
  rw [firstRows]
  split_ifs with hties
  · cases (rest.take n).getLast? with
    | none => exact nil_prefix
    | some last =>
      calc rest.take n ++ (rest.drop n).takeWhile (S.tied b last)
          <+: rest.take n ++ rest.drop n := (prefix_append_right_inj _).2 (List.takeWhile_prefix _)
        _ = rest := take_append_drop n rest
  · exact take_prefix n rest

theorem keep_prefix (b : B) (total : ℕ) (rest : List Row) (l : Option (LimitNode E)) :
    S.keep b total rest l <+: rest := by
  have hbound : ∀ (options : LimitOptions) (n : Option ℕ),
      ((n.map (S.firstRows options b rest)).getD rest) <+: rest := by
    intro options n
    cases n with
    | none => exact prefix_refl rest
    | some n => exact S.firstRows_prefix options b rest n
  rcases l with - | ⟨count, options⟩ | ⟨count, options⟩
  · exact prefix_refl rest
  · exact hbound options _
  · exact hbound options _

end SqlSource

/-! ## The condition -/

section Condition

variable [PyText] (G : SqlGlot B E) (S : SqlSource B E Row) (query dialect : String) (maxRows : ℕ)

/-- no limit, or a whole number under `LIMIT` or `TOP` and nothing more -/
def PlainLimit (q : ParsedQuery B E) : Prop :=
  q.limit = none ∨ ∃ text, q.limit = some (.limit (.number text) ⟨false, false⟩) ∧ (intOf text).isSome

/-- the number that is read back is one that the preview allows -/
def KeepsNumber (q : ParsedQuery B E) (maxRows : ℕ) : Prop := ∃ limit, readLimit q = some limit ∧ limit ≤ maxRows

/-- where a number is kept the query has no more rows than the preview, elsewhere as many as the preview can have -/
def LimitSafe (q : ParsedQuery B E) (all : List Row) : Prop :=
  PlainLimit q ∨ (KeepsNumber q maxRows ∧ (S.limited q all).length ≤ maxRows) ∨
    (¬ KeepsNumber q maxRows ∧ min maxRows (S.afterOffset q all).length ≤ (S.limited q all).length)

/-- when the text of the preview is right; a text that cannot be parsed must have the same first rows in a derived
table -/
def PreviewSafe : Prop :=
  match G.parseOne query (normalizeSqlDialect (some dialect)) with
  | none => (S.derived (trimmed query)).map (List.take maxRows) = (S.run query).map (List.take maxRows)
  | some q => ∀ all, S.rows q.body = some all → LimitSafe S maxRows q all

/-- the texts mean what sqlglot says -/
structure Agree : Prop where
  /-- the tree of a text has its rows -/
  parsed : ∀ q, G.parseOne query (normalizeSqlDialect (some dialect)) = some q → S.run query = S.yields q
  /-- the tree is printed, with its limit or the new one, as a text that has its rows -/
  printed : ∀ q, G.parseOne query (normalizeSqlDialect (some dialect)) = some q →
    ∀ l, l = q.limit ∨ l = some (previewLimit maxRows) →
      S.run (G.sql { q with limit := l } (normalizeSqlDialect (some dialect))) = S.yields { q with limit := l }
  /-- a number token counts its rows -/
  number : ∀ text n, intOf text = some n → S.count (.number text) = some n
  /-- `LIMIT` and `TOP` over a derived table -/
  limits : G.parseOne query (normalizeSqlDialect (some dialect)) = none →
    S.run (wrapped (normalizeSqlDialect (some dialect)) query maxRows) =
      (S.derived (trimmed query)).map (List.take maxRows)

end Condition

/-! ## Exactness -/

theorem intOf_toString (n : ℕ) : intOf (toString n) = some n := by
  have hsplit : (toString n).toList.splitOn '_' = [(toString n).toList] := by
    refine splitOn_eq_singleton fun h => ?_
    exact absurd (repr_digits n '_' h) (by decide)
  have hdigits : (toString n).toList.all Char.isDigit = true := all_eq_true.2 (repr_digits n)
  have hvalue : Nat.ofDigitChars 10 (toString n).toList 0 = n := by
    change Nat.ofDigitChars 10 n.repr.toList 0 = n
    rw [Nat.toList_repr, Nat.ofDigitChars_toDigits (by decide) (by decide)]
  have hgroup : (toString n).toList.isEmpty = false := by simp
  simp only [intOf, hsplit, all_cons, all_nil, flatten_cons, flatten_nil, append_nil, hgroup,
    hdigits, hvalue, Bool.not_false, Bool.and_true, if_true]

/-- **A replaced limit** is right exactly if the old one kept as many rows as the new one can. -/
theorem take_eq_take_iff {X rest : List Row} (h : X <+: rest) (n : ℕ) :
    rest.take n = X.take n ↔ min n rest.length ≤ X.length := by
  obtain ⟨k, rfl⟩ : ∃ k, X = rest.take k := ⟨X.length, prefix_iff_eq_take.1 h⟩
  rw [take_take, length_take]
  constructor
  · intro heq
    have hlen := congrArg List.length heq
    rw [length_take, length_take] at hlen
    omega
  · intro hle
    rcases le_total n k with hnk | hkn
    · rw [min_eq_left hnk]
    · rw [min_eq_right hkn]
      rcases le_total rest.length k with hrk | hkr
      · rw [take_of_length_le hrk, take_of_length_le (hrk.trans hkn)]
      · obtain rfl | rfl : n = k ∨ rest.length = k := by omega
        · rfl
        · rw [take_of_length_le hkn, take_of_length_le le_rfl]

section Exact

variable [PyText] {G : SqlGlot B E} {S : SqlSource B E Row} {query dialect : String} {maxRows : ℕ}

omit [PyText] in
theorem kept_iff (hnumber : ∀ text n, intOf text = some n → S.count (.number text) = some n) (q : ParsedQuery B E)
    (hkeeps : KeepsNumber q maxRows) (all : List Row) :
    S.limited q all = (S.limited q all).take maxRows ↔ LimitSafe S maxRows q all := by
  rw [eq_comm, take_eq_self_iff]
  constructor
  · exact fun h => .inr (.inl ⟨hkeeps, h⟩)
  · rintro (hplain | ⟨-, h⟩ | ⟨hnot, -⟩)
    · obtain ⟨limit, hread, hle⟩ := hkeeps
      rcases hplain with hnone | ⟨text, htext, -⟩
      · rw [readLimit, hnone] at hread
        cases hread
      · rw [readLimit, htext] at hread
        rw [SqlSource.limited, htext, SqlSource.keep, SqlSource.bound, if_neg (by simp), hnumber text limit hread,
          map_some, getD_some, SqlSource.firstRows, if_neg (by simp)]
        exact (length_take_le _ _).trans hle
    · exact h
    · exact absurd hkeeps hnot

omit [PyText] in
/-- a replaced limit: the text has the first rows after the offset -/
theorem replaced_iff (hnumber : ∀ text n, intOf text = some n → S.count (.number text) = some n) (q : ParsedQuery B E)
    (hkeeps : ¬ KeepsNumber q maxRows) (all : List Row) :
    S.limited { q with limit := some (previewLimit maxRows) } all = (S.limited q all).take maxRows ↔
      LimitSafe S maxRows q all := by
  have hnew : S.limited { q with limit := some (previewLimit maxRows) } all = (S.afterOffset q all).take maxRows := by
    rw [SqlSource.limited, previewLimit, SqlSource.keep, SqlSource.bound, if_neg (by simp),
      hnumber _ _ (intOf_toString maxRows), map_some, getD_some, SqlSource.firstRows, if_neg (by simp)]
    rfl
  have hprefix : S.limited q all <+: S.afterOffset q all := S.keep_prefix _ _ _ _
  rw [hnew, take_eq_take_iff hprefix]
  constructor
  · exact fun h => .inr (.inr ⟨hkeeps, h⟩)
  · rintro (hplain | ⟨hk, -⟩ | ⟨-, h⟩)
    · rcases hplain with hnone | ⟨text, htext, hint⟩
      · rw [SqlSource.limited, hnone]
        exact min_le_right _ _
      · obtain ⟨limit, hlimit⟩ := isSome_iff_exists.1 hint
        have hlt : maxRows < limit := by
          by_contra hle
          exact hkeeps ⟨limit, by rw [readLimit, htext]; exact hlimit, not_lt.1 hle⟩
        rw [SqlSource.limited, htext, SqlSource.keep, SqlSource.bound, if_neg (by simp), hnumber text limit hlimit,
          map_some, getD_some, SqlSource.firstRows, if_neg (by simp), length_take]
        exact min_le_min_right _ hlt.le
    · exact absurd hk hkeeps
    · exact h

theorem enforce_parsed {q : ParsedQuery B E} (hmax : 1 ≤ maxRows)
    (hparse : G.parseOne query (normalizeSqlDialect (some dialect)) = some q) :
    ∃ limit, (KeepsNumber q maxRows ∧ enforcePreviewLimit G query maxRows dialect =
        .ok (G.sql q (normalizeSqlDialect (some dialect)), limit)) ∨
      (¬ KeepsNumber q maxRows ∧ enforcePreviewLimit G query maxRows dialect =
        .ok (G.sql { q with limit := some (previewLimit maxRows) } (normalizeSqlDialect (some dialect)), limit)) := by
  have hnot : ¬ maxRows < 1 := by omega
  simp only [enforcePreviewLimit, hparse, if_neg hnot]
  cases hread : readLimit q with
  | none =>
    refine ⟨maxRows, .inr ⟨?_, rfl⟩⟩
    rintro ⟨limit, h, -⟩
    rw [hread] at h
    cases h
  | some limit =>
    by_cases hle : limit ≤ maxRows
    · exact ⟨limit, .inl ⟨⟨limit, hread, hle⟩, by simp only [if_pos hle]; rfl⟩⟩
    · refine ⟨maxRows, .inr ⟨?_, by simp only [if_neg hle]; rfl⟩⟩
      rintro ⟨limit', h, hle'⟩
      rw [hread] at h
      exact hle (Option.some.inj h ▸ hle')

/-- **A preview** yields the first rows of the query exactly if its limit is a plain number, or keeps few enough rows
where it is kept and enough rows where it is replaced. -/
theorem preview_iff (G : SqlGlot B E) (S : SqlSource B E Row) (query dialect : String) (maxRows : ℕ)
    (hmax : 1 ≤ maxRows) (h : Agree G S query dialect maxRows) :
    ∃ text limit, enforcePreviewLimit G query maxRows dialect = .ok (text, limit) ∧
      (S.run text = (S.run query).map (List.take maxRows) ↔ PreviewSafe G S query dialect maxRows) := by
  have hmap : ∀ (rows : Option (List Row)) (f g : List Row → List Row),
      rows.map f = (rows.map g).map (List.take maxRows) ↔ ∀ all, rows = some all → f all = (g all).take maxRows := by
    intro rows f g
    cases rows <;> simp
  cases hparse : G.parseOne query (normalizeSqlDialect (some dialect)) with
  | none =>
    have hnot : ¬ maxRows < 1 := by omega
    refine ⟨_, _, by simp only [enforcePreviewLimit, hparse, if_neg hnot]; rfl, ?_⟩
    rw [h.limits hparse, PreviewSafe, hparse]
  | some q =>
    obtain ⟨limit, ⟨hkeeps, htext⟩ | ⟨hkeeps, htext⟩⟩ := enforce_parsed (G := G) hmax hparse
    · refine ⟨_, _, htext, ?_⟩
      rw [h.printed q hparse q.limit (.inl rfl), h.parsed q hparse, PreviewSafe, hparse]
      exact (hmap _ _ _).trans (forall₂_congr fun all _ => kept_iff h.number q hkeeps all)
    · refine ⟨_, _, htext, ?_⟩
      rw [h.printed q hparse _ (.inr rfl), h.parsed q hparse, PreviewSafe, hparse]
      exact (hmap _ _ _).trans (forall₂_congr fun all _ => replaced_iff h.number q hkeeps all)

end Exact

/-! ## Two users -/

section Users

open scoped Ascii

def selectIds : String := "SELECT id FROM users ORDER BY id"

/-- two texts and their trees -/
def usersGlot : SqlGlot Unit Empty where
  parseOne text _ :=
    if text = selectIds ++ " LIMIT 5" then some ⟨(), some (.limit (.number "5") ⟨false, false⟩), none⟩
    else if text = selectIds ++ " FETCH FIRST 1 ROWS ONLY" then
      some ⟨(), some (.fetch (some (.number "1")) ⟨false, false⟩), none⟩
    else none
  sql q _ :=
    match q.limit with
    | some (.limit (.number text) _) => selectIds ++ " LIMIT " ++ text
    | _ => selectIds ++ " FETCH FIRST 1 ROWS ONLY"

def users : SqlSource Unit Empty ℕ where
  run text :=
    if text = selectIds ++ " FETCH FIRST 1 ROWS ONLY" ∨ text = selectIds ++ " LIMIT 1" then some [1] else some [1, 2]
  rows _ := some [1, 2]
  derived _ := none
  count
    | .number text => intOf text
    | .other _ => none
  share _ total := total
  tied _ _ _ := false

/-- a limit of five is replaced by one -/
theorem limit_replaced : 1 ≤ 1 ∧ ∃ text limit,
    enforcePreviewLimit usersGlot (selectIds ++ " LIMIT 5") 1 "postgres" = .ok (text, limit) ∧
      (users.run text = (users.run (selectIds ++ " LIMIT 5")).map (List.take 1) ↔
        PreviewSafe usersGlot users (selectIds ++ " LIMIT 5") "postgres" 1) := by
  refine ⟨le_rfl, preview_iff usersGlot users (selectIds ++ " LIMIT 5") "postgres" 1 le_rfl ?_⟩
  refine ⟨?_, ?_, fun text n h => h, fun h => by simp [usersGlot] at h⟩
  · rintro q hq
    cases hq
    rfl
  · rintro q hq l (rfl | rfl)
    all_goals
      cases hq
      decide +kernel

/-- **`FETCH FIRST`**: a query for one row, previewed with up to a hundred rows, yields two. -/
theorem fetch_replaced : enforcePreviewLimit usersGlot (selectIds ++ " FETCH FIRST 1 ROWS ONLY") 100 "postgres" =
      .ok (selectIds ++ " LIMIT 100", 100) ∧
    users.run (selectIds ++ " FETCH FIRST 1 ROWS ONLY") = some [1] ∧
    users.run (selectIds ++ " LIMIT 100") = some [1, 2] ∧
    users.run (selectIds ++ " LIMIT 100") ≠
      (users.run (selectIds ++ " FETCH FIRST 1 ROWS ONLY")).map (List.take 100) := by
  decide +kernel

end Users

end Langbridge.Runtime.PreviewLimit
