/-
Literals and date ranges of the semantic query compiler (`semantic/query/tsql.py`): a range is a pair of bounds, one of
the operators `before:`, `after:` and `on:` with a date, or a relative one such as `last 7 days` or `this month`. The
conditions are read on a time line cut into days (`Core.Calendar`): the engine gives each literal its place there.
-/
import Langbridge.Core.Calendar
import Langbridge.Semantic.Translator

namespace Langbridge.Semantic.DateRanges

open Core Core.Calendar PyText Option

/-- `float()` and `\d` -/
class PyNumerals extends PyText where
  isFloat : String → Bool
  digitValue : Char → Option ℕ

/-! ## Literals -/

/-- a literal of the statement; a number by its text -/
inductive Literal
  | number (text : String)
  | string (text : String)
  | boolean (b : Bool)
deriving DecidableEq

def numericTypes : List String := ["integer", "int", "decimal", "numeric", "float", "double", "real"]

def booleanTypes : List String := ["bool", "boolean"]

section Literals

variable [PyNumerals]

/-- `(dialect or "tsql").lower()` -/
def dialectKey (dialect : String) : String := lower (if dialect = "" then "tsql" else dialect)

def isTsql (dialect : String) : Bool := dialectKey dialect ∈ ["tsql", "sqlserver", "mssql"]

def isPostgres (dialect : String) : Bool := dialectKey dialect ∈ ["duckdb", "postgres", "postgresql"]

/-- a truth value, which T-SQL writes as a number -/
def truthLiteral (dialect : String) (b : Bool) : Literal :=
  if isTsql dialect then .number (if b then "1" else "0") else .boolean b

/-- `(data_type or "").strip().lower()` -/
def normalizedType (dataType : Option String) : String := norm (dataType.getD "")

def truthOf (text : String) : Option Bool :=
  if lower text ∈ ["true", "1", "yes"] then some true
  else if lower text ∈ ["false", "0", "no"] then some false
  else none

/-- `format_literal` of a text -/
def formatLiteral (value : String) (dataType : Option String) (dialect : String) : Literal :=
  match (if normalizedType dataType ∈ booleanTypes then truthOf value else none) with
  | some b => truthLiteral dialect b
  | none =>
    if normalizedType dataType ∈ numericTypes ∧ PyNumerals.isFloat value then .number value else .string value

theorem formatLiteral_string {value text : String} {dataType : Option String} {dialect : String}
    (h : formatLiteral value dataType dialect = .string text) : text = value := by
  rw [formatLiteral] at h
  split at h
  · rw [truthLiteral] at h
    split_ifs at h
  · split_ifs at h
    exact (Literal.string.inj h).symm

end Literals

/-! ## Date expressions -/

inductive DateUnit
  | day | week | month | quarter | year
deriving DecidableEq

/-- the expressions that bound a range -/
inductive DateExpr
  | literal (l : Literal)
  /-- `CAST(e AS DATE)` -/
  | asDate (e : DateExpr)
  | getdate
  | currentDate
  | currentTimestamp
  /-- `DATEADD(unit, amount, e)` -/
  | dateAdd (e : DateExpr) (amount : ℤ) (unit : DateUnit)
  /-- `DATE_TRUNC(unit, e)` -/
  | dateTrunc (unit : DateUnit) (e : DateExpr)
  /-- `e + INTERVAL 'amount unit'`, or `-` -/
  | shift (e : DateExpr) (amount : ℤ) (unit : DateUnit)
  /-- `DATEADD(unit, DATEDIFF(unit, 0, e) + offset, 0)` -/
  | countedPeriod (unit : DateUnit) (e : DateExpr) (offset : ℤ)
deriving DecidableEq

/-- the condition that a range puts on a column -/
inductive RangeCondition
  /-- `column >= first AND column <= last` -/
  | within (first last : DateExpr)
  /-- `column >= first AND column < stop` -/
  | upTo (first stop : DateExpr)
  | before (e : DateExpr)
  | after (e : DateExpr)
  | equals (e : DateExpr)
deriving DecidableEq

/-- a range as a query has it -/
inductive DateRange
  | text (s : String)
  | list (values : List String)
deriving DecidableEq

structure ValueError where
  message : String
deriving DecidableEq

section Ranges

variable [PyNumerals]

/-- `date_trunc` of a period of days -/
def truncated (unit : DateUnit) (e : DateExpr) (dialect : String) : DateExpr :=
  if isPostgres dialect then .dateTrunc unit e else .countedPeriod unit e 0

/-- the words of a relative range, which blanks, underscores and hyphens separate -/
def rangeWords (text : String) : List String :=
  ((((norm text).toList.splitOnP fun c => c = '_' ∨ c = '-' ∨ isSpace c).filter (· ≠ [])).map
    String.ofList)

def unitOf (word : String) : Option DateUnit :=
  if word = "day" then some .day
  else if word = "week" then some .week
  else if word = "month" then some .month
  else if word = "quarter" then some .quarter
  else if word = "year" then some .year
  else none

/-- a unit, with an `s` or without -/
def unitsOf (word : String) : Option DateUnit :=
  (unitOf word).or (if word.toList.getLast? = some 's' then unitOf (String.ofList word.toList.dropLast) else none)

/-- `int()` of digits -/
def digitsValue (word : String) : Option ℕ :=
  if word = "" then none
  else word.toList.foldlM (fun n c => (PyNumerals.digitValue c).map fun v => 10 * n + v) 0

inductive Direction
  | last | this | next
deriving DecidableEq

def directionOf (word : String) : Option Direction :=
  if word = "last" then some .last
  else if word = "this" then some .this
  else if word = "next" then some .next
  else none

/-- the present day -/
def today (dialect : String) : DateExpr := if isTsql dialect then .asDate .getdate else .currentDate

/-- the present instant -/
def now (dialect : String) : DateExpr := if isTsql dialect then .getdate else .currentTimestamp

/-- some units before or after the present -/
def countedRange (direction : Direction) (amount : ℕ) (unit : DateUnit) (dialect : String) : DateExpr × DateExpr :=
  match unit, direction with
  | .day, .last => (.dateAdd (today dialect) (-(max ((amount : ℤ) - 1) 0)) .day, .dateAdd (today dialect) 1 .day)
  | .day, _ => (today dialect, .dateAdd (today dialect) amount .day)
  | unit, .last => (.dateAdd (now dialect) (-amount) unit, now dialect)
  | unit, _ => (now dialect, .dateAdd (now dialect) amount unit)

/-- the period that a direction stands for, counted from the present one -/
def Direction.offset : Direction → ℤ
  | .last => -1
  | .this => 0
  | .next => 1

/-- the beginning of a period, counted from the present one -/
def periodStart (unit : DateUnit) (offset : ℤ) (dialect : String) : DateExpr :=
  if isPostgres dialect then
    if offset = 0 then truncated unit (today dialect) dialect
    else .shift (truncated unit (today dialect) dialect) offset unit
  else .countedPeriod unit (now dialect) offset

/-- a whole period -/
def periodRange (direction : Direction) (unit : DateUnit) (dialect : String) : DateExpr × DateExpr :=
  (periodStart unit direction.offset dialect, periodStart unit (direction.offset + 1) dialect)

def parseRelativeDateRange (text dialect : String) : Option (DateExpr × DateExpr) :=
  let day := today dialect
  let tomorrow := DateExpr.dateAdd day 1 .day
  match rangeWords text with
  | ["today"] => some (day, tomorrow)
  | ["yesterday"] => some (.dateAdd day (-1) .day, day)
  | ["tomorrow"] => some (tomorrow, .dateAdd day 2 .day)
  | ["last", "7", "days"] => some (.dateAdd day (-6) .day, tomorrow)
  | ["last", "30", "days"] => some (.dateAdd day (-29) .day, tomorrow)
  | ["month", "to", "date"] => some (truncated .month day dialect, tomorrow)
  | ["year", "to", "date"] => some (truncated .year day dialect, tomorrow)
  | [direction, count, unit] =>
    match directionOf direction, digitsValue count, unitsOf unit with
    | some .this, _, _ => none
    | some direction, some amount, some unit => some (countedRange direction amount unit dialect)
    | _, _, _ => none
  | [direction, unit] =>
    match directionOf direction, unitOf unit with
    | some _, some .day => none
    | some direction, some unit => some (periodRange direction unit dialect)
    | _, _ => none
  | _ => none

/-- `_ISO_DATE_ONLY_RE` on the stripped text -/
def isDateOnly (text : String) : Bool :=
  let digit (c : Char) : Bool := (PyNumerals.digitValue c).isSome
  match (strip text).toList with
  | [y₁, y₂, y₃, y₄, h₁, m₁, m₂, h₂, d₁, d₂] =>
    digit y₁ && digit y₂ && digit y₃ && digit y₄ && h₁ = '-' && digit m₁ && digit m₂ && h₂ = '-' && digit d₁ && digit d₂
  | _ => false

/-- `normalized_type in DATE_TYPES` -/
def isDateType (dataType : Option String) : Bool := normalizedType dataType ∈ dateTypes

def castDateLiteralIfNeeded (l : Literal) (raw : String) (dataType : Option String) : DateExpr :=
  if isDateType dataType && isDateOnly raw then .asDate (.literal l) else .literal l

def buildSingleDateOperatorCondition (text : String) (dataType : Option String) (dialect : String) :
    Option RangeCondition :=
  let stripped := (strip text).toList
  let head := stripped.takeWhile (· ≠ ':')
  let operator := lower (String.ofList (head.reverse.dropWhile isSpace).reverse)
  let rest := (stripped.dropWhile (· ≠ ':')).drop 1
  let value := strip (String.ofList rest)
  if ':' ∉ stripped ∨ '\n' ∈ value.toList ∨ value = "" then none
  else
    let l := formatLiteral value dataType dialect
    if operator = "before" then some (.before (.literal l))
    else if operator = "after" then some (.after (.literal l))
    else if operator = "on" then
      some (.upTo (.literal l) (.dateAdd (castDateLiteralIfNeeded l value dataType) 1 .day))
    else none

def buildDateRangeCondition (range : DateRange) (dataType : Option String) (dialect : String) :
    Except ValueError RangeCondition :=
  match range with
  | .list [first, last] =>
    let start := formatLiteral first dataType dialect
    let stop := formatLiteral last dataType dialect
    if isDateType dataType && isDateOnly first && isDateOnly last then
      .ok (.upTo (.literal start) (.dateAdd (castDateLiteralIfNeeded stop last dataType) 1 .day))
    else .ok (.within (.literal start) (.literal stop))
  | .text text =>
    match buildSingleDateOperatorCondition text dataType dialect with
    | some condition => .ok condition
    | none =>
      match parseRelativeDateRange text dialect with
      | some (start, stop) => .ok (.upTo start stop)
      | none => .ok (.equals (.literal (formatLiteral text dataType dialect)))
  | .list _ => .error ⟨"Unsupported date range format."⟩

end Ranges

/-! ## The time line -/

def DateUnit.grid : DateUnit → Grid
  | .day => ⟨id, id, fun k => lt_add_one k, le_refl, fun d => lt_add_one d⟩
  | .week => weeks
  | .month => months
  | .quarter => quarters
  | .year => years

/-- `DATEDIFF(unit, 0, d)`: the boundaries crossed since day 0; a week's boundary is its Sunday -/
def DateUnit.diff (unit : DateUnit) (d : ℤ) : ℤ :=
  match unit with
  | .week => (d + 1) / 7
  | unit => unit.grid.index d

/-- an engine that runs the statements: the ticks of a day, and the place it reads a literal at, a date at its
midnight -/
structure TimeLine [PyNumerals] where
  ticks : ℤ
  one_lt_ticks : 1 < ticks
  read : Literal → Option ℤ
  midnight : ∀ text dataType dialect i, isDateOnly text = true → read (formatLiteral text dataType dialect) = some i →
    ticks ∣ i

section Reading

variable [PyNumerals] (T : TimeLine)

/-- the first instant of a day -/
def TimeLine.dayStart (d : ℤ) : ℤ := T.ticks * d

/-- the day of an instant -/
def TimeLine.dayOf (x : ℤ) : ℤ := x / T.ticks

/-- an instant some units later -/
def TimeLine.add (amount : ℤ) (x : ℤ) : DateUnit → ℤ
  | .day => x + T.ticks * amount
  | .week => x + T.ticks * (7 * amount)
  | .month => T.dayStart (addMonths amount (T.dayOf x)) + x % T.ticks
  | .quarter => T.dayStart (addMonths (3 * amount) (T.dayOf x)) + x % T.ticks
  | .year => T.dayStart (addMonths (12 * amount) (T.dayOf x)) + x % T.ticks

/-- the instant that an expression stands for -/
def DateExpr.eval (present : ℤ) : DateExpr → Option ℤ
  | .literal l => T.read l
  | .asDate e => (e.eval present).map fun x => T.dayStart (T.dayOf x)
  | .getdate => some present
  | .currentDate => some (T.dayStart (T.dayOf present))
  | .currentTimestamp => some present
  | .dateAdd e amount unit => (e.eval present).map fun x => T.add amount x unit
  | .dateTrunc unit e => (e.eval present).map fun x => T.dayStart (unit.grid.start (unit.grid.index (T.dayOf x)))
  | .shift e amount unit => (e.eval present).map fun x => T.add amount x unit
  | .countedPeriod unit e offset =>
    (e.eval present).map fun x => T.dayStart (unit.grid.start (unit.diff (T.dayOf x) + offset))

def RangeCondition.holds (present x : ℤ) : RangeCondition → Bool
  | .within first last => (first.eval T present).any (· ≤ x) && (last.eval T present).any (x ≤ ·)
  | .upTo first stop => (first.eval T present).any (· ≤ x) && (stop.eval T present).any (x < ·)
  | .before e => (e.eval T present).any (x < ·)
  | .after e => (e.eval T present).any (· < x)
  | .equals e => (e.eval T present).any (x = ·)

/-! ## Pairs of bounds -/

/-- what a column holds: days, each by its first instant, or instants -/
inductive ColumnKind
  | date | timestamp
deriving DecidableEq

def ColumnKind.Value (kind : ColumnKind) (x : ℤ) : Prop := kind = .date → T.ticks ∣ x

/-- the instant is not behind the end of a bound that is read at `i`; the end of a date is that of its day -/
def BeforeEnd (text : String) (i x : ℤ) : Prop := if isDateOnly text then x < i + T.ticks else x ≤ i

def rangeHolds (present x : ℤ) (range : DateRange) (dataType : Option String) (dialect : String) : Bool :=
  match buildDateRangeCondition range dataType dialect with
  | .ok condition => condition.holds T present x
  | .error _ => false

section Days

theorem ticks_pos : 0 < T.ticks := lt_trans Int.zero_lt_one T.one_lt_ticks

@[simp] theorem dayOf_dayStart (d : ℤ) : T.dayOf (T.dayStart d) = d := Int.mul_ediv_cancel_left d (ticks_pos T).ne'

theorem dayStart_dayOf {x : ℤ} (h : T.ticks ∣ x) : T.dayStart (T.dayOf x) = x := Int.mul_ediv_cancel' h

theorem dayStart_le_iff (d x : ℤ) : T.dayStart d ≤ x ↔ d ≤ T.dayOf x := by
  rw [TimeLine.dayOf, Int.le_ediv_iff_mul_le (ticks_pos T), TimeLine.dayStart, mul_comm]

theorem lt_dayStart_iff (d x : ℤ) : x < T.dayStart d ↔ T.dayOf x < d := by
  rw [← not_le, dayStart_le_iff, not_le]

theorem dayStart_lt_iff (d d' : ℤ) : T.dayStart d < T.dayStart d' ↔ d < d' := by
  rw [lt_dayStart_iff, dayOf_dayStart]

/-- between two midnights less than a day apart there is none -/
theorem le_of_dvd {x j : ℤ} (hx : T.ticks ∣ x) (hj : T.ticks ∣ j) (h : x < j + T.ticks) : x ≤ j := by
  obtain ⟨a, rfl⟩ := hx
  obtain ⟨b, rfl⟩ := hj
  have hlt : a < b + 1 := by
    apply lt_of_mul_lt_mul_left _ (ticks_pos T).le
    rw [mul_add, mul_one]
    exact h
  exact mul_le_mul_of_nonneg_left (Int.lt_add_one_iff.1 hlt) (ticks_pos T).le

end Days

section Pairs

variable (first last : String) (dataType : Option String) (dialect : String) {i j : ℤ} (present : ℤ)

theorem pair_holds_of_dates (hi : T.read (formatLiteral first dataType dialect) = some i)
    (hj : T.read (formatLiteral last dataType dialect) = some j)
    (hdates : (isDateType dataType && isDateOnly first && isDateOnly last) = true) (x : ℤ) :
    rangeHolds T present x (.list [first, last]) dataType dialect = true ↔ i ≤ x ∧ x < j + T.ticks := by
  obtain ⟨htype, hlast⟩ : isDateType dataType = true ∧ isDateOnly last = true := by
    rw [Bool.and_eq_true, Bool.and_eq_true] at hdates
    exact ⟨hdates.1.1, hdates.2⟩
  have hday := dayStart_dayOf T (T.midnight last dataType dialect j hlast hj)
  have hcast : castDateLiteralIfNeeded (formatLiteral last dataType dialect) last dataType =
      .asDate (.literal (formatLiteral last dataType dialect)) := by
    rw [castDateLiteralIfNeeded, htype, hlast]
    rfl
  have hbuild : buildDateRangeCondition (.list [first, last]) dataType dialect =
      .ok (.upTo (.literal (formatLiteral first dataType dialect))
        (.dateAdd (.asDate (.literal (formatLiteral last dataType dialect))) 1 .day)) := by
    simp only [buildDateRangeCondition, if_pos hdates, hcast]
  simp only [rangeHolds, hbuild, RangeCondition.holds, DateExpr.eval, hi, hj, map_some, any_some, hday,
    TimeLine.add, mul_one, Bool.and_eq_true, decide_eq_true_eq]

theorem pair_holds_of_other (hi : T.read (formatLiteral first dataType dialect) = some i)
    (hj : T.read (formatLiteral last dataType dialect) = some j)
    (hdates : ¬(isDateType dataType && isDateOnly first && isDateOnly last) = true) (x : ℤ) :
    rangeHolds T present x (.list [first, last]) dataType dialect = true ↔ i ≤ x ∧ x ≤ j := by
  have hbuild : buildDateRangeCondition (.list [first, last]) dataType dialect =
      .ok (.within (.literal (formatLiteral first dataType dialect))
        (.literal (formatLiteral last dataType dialect))) := by
    simp only [buildDateRangeCondition, if_neg hdates]
  simp only [rangeHolds, hbuild, RangeCondition.holds, DateExpr.eval, hi, hj, any_some, Bool.and_eq_true,
    decide_eq_true_eq]

/-- **A pair of bounds** holds from the first to the end of the second exactly where the second is not a date, both are
dates under a date type, the column holds dates, or nothing lies between them. -/
theorem pair_iff (kind : ColumnKind) (hi : T.read (formatLiteral first dataType dialect) = some i)
    (hj : T.read (formatLiteral last dataType dialect) = some j) :
    (∀ x, kind.Value T x → (rangeHolds T present x (.list [first, last]) dataType dialect = true ↔
      i ≤ x ∧ BeforeEnd T last j x)) ↔
    isDateOnly last = false ∨ isDateOnly first = true ∧ isDateType dataType = true ∨ kind = .date ∨
      j + T.ticks ≤ i := by
  by_cases hdates : (isDateType dataType && isDateOnly first && isDateOnly last) = true
  · have hparts := hdates
    rw [Bool.and_eq_true, Bool.and_eq_true] at hparts
    refine iff_of_true (fun x _ => ?_) (.inr (.inl ⟨hparts.1.2, hparts.1.1⟩))
    rw [pair_holds_of_dates T first last dataType dialect present hi hj hdates, BeforeEnd, if_pos hparts.2]
  · have hholds := pair_holds_of_other T first last dataType dialect present hi hj hdates
    by_cases hlast : isDateOnly last = true
    · have hmixed : ¬(isDateOnly first = true ∧ isDateType dataType = true) := by
        rintro ⟨hfirst, htype⟩
        simp [hfirst, htype, hlast] at hdates
      simp only [hholds, BeforeEnd, if_pos hlast]
      have hmidnight := T.midnight last dataType dialect j hlast hj
      have hticks := T.one_lt_ticks
      apply Iff.intro
      · intro h
        cases kind with
        | date => exact .inr (.inr (.inl rfl))
        | timestamp =>
          -- an instant of the last day that is not its first
          by_contra hnone
          simp only [not_or, not_le] at hnone
          obtain ⟨-, hend⟩ := (h (max i (j + 1)) nofun).2 ⟨le_max_left _ _, max_lt hnone.2.2.2 (by omega)⟩
          omega
      · rintro (hnot | hboth | rfl | hempty) x hx
        · rw [hlast] at hnot
          cases hnot
        · exact absurd hboth hmixed
        · apply and_congr_right
          intro _
          exact ⟨fun h => by omega, fun h => le_of_dvd T (hx rfl) hmidnight h⟩
        · apply and_congr_right
          intro hle
          apply iff_of_false <;> omega
    · refine iff_of_true (fun x _ => ?_) (.inl (Bool.not_eq_true _ ▸ hlast))
      rw [hholds, BeforeEnd, if_neg hlast]

end Pairs

/-! ## Periods -/

def DateUnit.word : DateUnit → String
  | .day => "day"
  | .week => "week"
  | .month => "month"
  | .quarter => "quarter"
  | .year => "year"

def Direction.word : Direction → String
  | .last => "last"
  | .this => "this"
  | .next => "next"

section Periods

variable (present : ℤ) (dialect : String)

/-- the text is a relative range, and its condition holds from `a` on and before `b` -/
def Covers (text : String) (a b : ℤ) : Prop :=
  ∃ range, parseRelativeDateRange text dialect = some range ∧
    ∀ x, (RangeCondition.upTo range.1 range.2).holds T present x = true ↔ a ≤ x ∧ x < b

/-- three ranges lie side by side, the present instant in the second -/
def SideBySide (last this next : String) : Prop :=
  ∃ a b c d, Covers T present dialect last a b ∧ Covers T present dialect this b c ∧
    Covers T present dialect next c d ∧ a < b ∧ b ≤ present ∧ present < c ∧ c < d

/-- the period that the ranges of a unit are counted from -/
def DateUnit.counted (unit : DateUnit) : ℤ :=
  if isPostgres dialect then unit.grid.index (T.dayOf present) else unit.diff (T.dayOf present)

/-- the first instant of a period -/
def DateUnit.startsAt (unit : DateUnit) (k : ℤ) : ℤ := T.dayStart (unit.grid.start k)

theorem eval_today : (today dialect).eval T present = some (T.dayStart (T.dayOf present)) := by
  rw [today]
  cases isTsql dialect <;> rfl

theorem eval_now : (now dialect).eval T present = some present := by
  rw [now]
  cases isTsql dialect <;> rfl

/-- whole units are added period by period -/
theorem add_startsAt (unit : DateUnit) (amount k : ℤ) :
    T.add amount (unit.startsAt T k) unit = unit.startsAt T (k + amount) := by
  have hmonth : ∀ n m : ℤ, T.dayStart (addMonths n (T.dayOf (T.dayStart (monthStart m)))) +
      T.dayStart (monthStart m) % T.ticks = T.dayStart (monthStart (m + n)) := by
    intro n m
    have hmod : T.dayStart (monthStart m) % T.ticks = 0 := Int.mul_emod_right _ _
    rw [dayOf_dayStart, addMonths_start, hmod, add_zero]
  cases unit with
  | day => exact (mul_add T.ticks k amount).symm
  | week =>
    change T.ticks * (7 * k) + T.ticks * (7 * amount) = T.ticks * (7 * (k + amount))
    ring
  | month => exact hmonth amount k
  | quarter =>
    refine (hmonth (3 * amount) (3 * k)).trans ?_
    rw [← mul_add]
    rfl
  | year =>
    refine (hmonth (12 * amount) (12 * k)).trans ?_
    rw [← mul_add]
    rfl

theorem eval_periodStart (unit : DateUnit) (offset : ℤ) :
    (periodStart unit offset dialect).eval T present =
      some (unit.startsAt T (unit.counted T present dialect + offset)) := by
  rw [periodStart, DateUnit.counted]
  cases hpostgres : isPostgres dialect with
  | true =>
    have htruncated : (truncated unit (today dialect) dialect).eval T present =
        some (unit.startsAt T (unit.grid.index (T.dayOf present))) := by
      rw [truncated, hpostgres, if_pos rfl, DateExpr.eval, eval_today, map_some, dayOf_dayStart]
      rfl
    rw [if_pos rfl, if_pos rfl]
    split_ifs with hoffset
    · rw [hoffset, add_zero, htruncated]
    · rw [DateExpr.eval, htruncated, map_some, add_startsAt]
  | false =>
    rw [if_neg Bool.false_ne_true, if_neg Bool.false_ne_true, DateExpr.eval, eval_now]
    rfl

theorem startsAt_lt (unit : DateUnit) (k : ℤ) : unit.startsAt T k < unit.startsAt T (k + 1) :=
  (dayStart_lt_iff T _ _).2 (unit.grid.start_lt k)

theorem mem_startsAt_iff (unit : DateUnit) (k : ℤ) :
    unit.startsAt T k ≤ present ∧ present < unit.startsAt T (k + 1) ↔ unit.grid.index (T.dayOf present) = k := by
  rw [DateUnit.startsAt, DateUnit.startsAt, dayStart_le_iff, lt_dayStart_iff, unit.grid.mem_period_iff]

/-- a whole period's text -/
theorem parse_period {text : String} (direction : Direction) {unit : DateUnit} (hunit : unit ≠ .day)
    (hwords : rangeWords text = [direction.word, unit.word]) :
    parseRelativeDateRange text dialect = some (periodRange direction unit dialect) := by
  rw [parseRelativeDateRange, hwords]
  cases unit with
  | day => exact absurd rfl hunit
  | week => cases direction <;> rfl
  | month => cases direction <;> rfl
  | quarter => cases direction <;> rfl
  | year => cases direction <;> rfl

theorem covers_period {text : String} (direction : Direction) {unit : DateUnit} (hunit : unit ≠ .day)
    (hwords : rangeWords text = [direction.word, unit.word]) :
    Covers T present dialect text (unit.startsAt T (unit.counted T present dialect + direction.offset))
      (unit.startsAt T (unit.counted T present dialect + (direction.offset + 1))) := by
  refine ⟨_, parse_period dialect direction hunit hwords, fun x => ?_⟩
  simp only [RangeCondition.holds, periodRange, eval_periodStart, any_some, Bool.and_eq_true, decide_eq_true_eq]

/-- the texts of the three periods of a unit -/
structure PeriodTexts (unit : DateUnit) (last this next : String) : Prop where
  last : rangeWords last = ["last", unit.word]
  this : rangeWords this = ["this", unit.word]
  next : rangeWords next = ["next", unit.word]

/-- where the periods are counted from tells whether the present one is met -/
theorem sideBySide_iff {unit : DateUnit} (hunit : unit ≠ .day) {last this next : String}
    (htexts : PeriodTexts unit last this next) :
    SideBySide T present dialect last this next ↔
      unit.grid.index (T.dayOf present) = unit.counted T present dialect := by
  have hlast := covers_period T present dialect .last hunit htexts.last
  have hthis := covers_period T present dialect .this hunit htexts.this
  have hnext := covers_period T present dialect .next hunit htexts.next
  simp only [Direction.offset, add_zero, zero_add, neg_add_cancel] at hlast hthis hnext
  rw [← mem_startsAt_iff]
  apply Iff.intro
  · rintro ⟨a, b, c, d, -, ⟨range, hrange, hholds⟩, -, -, hb, hc, -⟩
    obtain ⟨range', hrange', hholds'⟩ := hthis
    obtain rfl := Option.some.inj (hrange.symm.trans hrange')
    exact (hholds' present).1 ((hholds present).2 ⟨hb, hc⟩)
  · rintro ⟨hle, hlt⟩
    refine ⟨_, _, _, _, hlast, hthis, hnext, ?_, hle, hlt, ?_⟩
    · have h := startsAt_lt T unit (unit.counted T present dialect + -1)
      rw [add_assoc, neg_add_cancel, add_zero] at h
      exact h
    · have h := startsAt_lt T unit (unit.counted T present dialect + 1)
      rw [add_assoc] at h
      exact h

/-- **Whole periods** lie side by side around the present, except for weeks that `DATEDIFF` counts, on Sundays. -/
theorem windows_iff {unit : DateUnit} (hunit : unit ≠ .day) {last this next : String}
    (htexts : PeriodTexts unit last this next) :
    SideBySide T present dialect last this next ↔
      isPostgres dialect = true ∨ unit ≠ .week ∨ T.dayOf present % 7 ≠ 6 := by
  rw [sideBySide_iff T present dialect hunit htexts, DateUnit.counted]
  cases isPostgres dialect with
  | true => simp
  | false =>
    cases unit with
    | day => exact absurd rfl hunit
    | week =>
      change T.dayOf present / 7 = (T.dayOf present + 1) / 7 ↔ _
      simp only [Bool.false_eq_true, ne_eq, not_true_eq_false, false_or]
      omega
    | month => simp [DateUnit.diff]
    | quarter => simp [DateUnit.diff]
    | year => simp [DateUnit.diff]

theorem days_sideBySide {before present' behind : String} (hbefore : rangeWords before = ["yesterday"])
    (hat : rangeWords present' = ["today"]) (hbehind : rangeWords behind = ["tomorrow"]) :
    SideBySide T present dialect before present' behind := by
  have hpresent := (mem_startsAt_iff T present .day (T.dayOf present)).2 rfl
  have hstart := startsAt_lt T .day (T.dayOf present + -1)
  have hstop := startsAt_lt T .day (T.dayOf present + 1)
  rw [add_assoc] at hstart hstop
  rw [neg_add_cancel, add_zero] at hstart
  have hnow : (today dialect).eval T present = some (DateUnit.day.startsAt T (T.dayOf present)) :=
    eval_today T present dialect
  have hday : ∀ k, (DateExpr.dateAdd (today dialect) k .day).eval T present =
      some (DateUnit.day.startsAt T (T.dayOf present + k)) := by
    intro k
    rw [DateExpr.eval, hnow, map_some, add_startsAt]
  have hparse : parseRelativeDateRange before dialect = some (.dateAdd (today dialect) (-1) .day, today dialect) := by
    rw [parseRelativeDateRange, hbefore]
    rfl
  have hparse' : parseRelativeDateRange present' dialect = some (today dialect, .dateAdd (today dialect) 1 .day) := by
    rw [parseRelativeDateRange, hat]
    rfl
  have hparse'' : parseRelativeDateRange behind dialect =
      some (.dateAdd (today dialect) 1 .day, .dateAdd (today dialect) 2 .day) := by
    rw [parseRelativeDateRange, hbehind]
    rfl
  refine ⟨_, _, _, _, ⟨_, hparse, fun x => ?_⟩, ⟨_, hparse', fun x => ?_⟩, ⟨_, hparse'', fun x => ?_⟩, hstart,
    hpresent.1, hpresent.2, hstop⟩
  · simp only [RangeCondition.holds, hday, hnow, any_some, Bool.and_eq_true, decide_eq_true_eq]
  · simp only [RangeCondition.holds, hday, hnow, any_some, Bool.and_eq_true, decide_eq_true_eq]
  · simp only [RangeCondition.holds, hday, any_some, Bool.and_eq_true, decide_eq_true_eq]
    norm_num

end Periods

end Reading

/-! ## A January's last day -/

section January

open scoped Ascii

/-- digits, with a sign and a point or without -/
def asciiFloat (s : String) : Bool :=
  let unsigned := match s.toList with
    | '-' :: cs => cs
    | cs => cs
  unsigned.any Char.isDigit && unsigned.all (fun c => c.isDigit || c = '.') && unsigned.count '.' ≤ 1

namespace Ascii

scoped instance : PyNumerals where
  isFloat := asciiFloat
  digitValue c := if c.isDigit then some (c.toNat - 48) else none

end Ascii

open scoped Ascii

/-- minutes; three instants of January 2024 are read -/
def januaryReads : Literal → Option ℤ
  | .string "2024-01-01 00:00" => some (1440 * 45290)
  | .string "2024-01-31" => some (1440 * 45320)
  | .string "2024-01-31 12:00" => some (1440 * 45320 + 720)
  | _ => none

def january : TimeLine where
  ticks := 1440
  one_lt_ticks := by decide
  read := januaryReads
  midnight := by
    intro text dataType dialect i honly hread
    rw [januaryReads.eq_def] at hread
    split at hread
    · exact Option.some.inj hread ▸ Int.dvd_mul_right _ _
    · exact Option.some.inj hread ▸ Int.dvd_mul_right _ _
    · rename_i hliteral
      rw [← formatLiteral_string hliteral] at honly
      exact absurd honly (by decide +kernel)
    · cases hread

theorem week_texts : PeriodTexts .week "last week" "this_week" "Next-Week" :=
  ⟨by decide +kernel, by decide +kernel, by decide +kernel⟩

end January

end Langbridge.Semantic.DateRanges
