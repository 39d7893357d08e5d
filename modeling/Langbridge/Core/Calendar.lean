/-
Days and the periods they fall into. A day is counted from the first of January 1900, which was a Monday; a grid cuts
the days into consecutive periods, and the Gregorian months are one, with quarters and years made of them.

Main results: `Grid.mem_period_iff`, `months`.
-/
import Mathlib.Tactic

namespace Langbridge.Core.Calendar

/-- consecutive periods of days: where each begins, and the one that a day lies in -/
structure Grid where
  start : ℤ → ℤ
  index : ℤ → ℤ
  start_lt : ∀ k, start k < start (k + 1)
  start_index_le : ∀ d, start (index d) ≤ d
  lt_start_index : ∀ d, d < start (index d + 1)

namespace Grid

variable (g : Grid)

theorem start_strictMono : StrictMono g.start := strictMono_int_of_lt_succ g.start_lt

/-- **A day lies in exactly one period.** -/
theorem mem_period_iff (d k : ℤ) : g.start k ≤ d ∧ d < g.start (k + 1) ↔ g.index d = k := by
  apply Iff.intro
  · rintro ⟨hle, hlt⟩
    have hlow := g.start_strictMono.lt_iff_lt.1 (hle.trans_lt (g.lt_start_index d))
    have hhigh := g.start_strictMono.lt_iff_lt.1 ((g.start_index_le d).trans_lt hlt)
    omega
  · rintro rfl
    exact ⟨g.start_index_le d, g.lt_start_index d⟩

@[simp] theorem index_start (k : ℤ) : g.index (g.start k) = k :=
  (g.mem_period_iff _ k).1 ⟨le_refl _, g.start_lt k⟩

/-- several periods taken together -/
def coarsen (n : ℤ) (hn : 0 < n) : Grid where
  start k := g.start (n * k)
  index d := g.index d / n
  start_lt k := by
    apply g.start_strictMono
    rw [mul_add, mul_one]
    exact lt_add_of_pos_right _ hn
  start_index_le d := (g.start_strictMono.monotone (Int.mul_ediv_self_le hn.ne')).trans (g.start_index_le d)
  lt_start_index d := by
    refine (g.lt_start_index d).trans_le (g.start_strictMono.monotone ?_)
    have h := Int.lt_mul_ediv_self_add hn (x := g.index d)
    rw [mul_add, mul_one]
    exact h

end Grid

/-- weeks begin on Mondays -/
def weeks : Grid where
  start k := 7 * k
  index d := d / 7
  start_lt k := by omega
  start_index_le d := by omega
  lt_start_index d := by omega

/-! ## Months -/

/-- the first day of a month; years are taken from March on, so that a leap day is the last of its year -/
def monthStart (m : ℤ) : ℤ :=
  let year := (m + 22798) / 12
  let month := (m + 22798) % 12
  365 * year + year / 4 - year / 100 + year / 400 + (153 * month + 2) / 5 - 693901

theorem monthStart_lt (m : ℤ) : monthStart m < monthStart (m + 1) := by
  simp only [monthStart]
  omega

/-- months last 146097 / 4800 days in the mean -/
theorem monthStart_near (m : ℤ) :
    146097 * m - 4800 * 6 ≤ 4800 * monthStart m ∧ 4800 * monthStart m ≤ 146097 * m + 4800 * 6 := by
  simp only [monthStart]
  omega

/-- the month that a day lies in: the mean gives it up to one -/
def monthIndex (d : ℤ) : ℤ :=
  let near := 4800 * d / 146097
  if monthStart (near + 1) ≤ d then near + 1
  else if monthStart near ≤ d then near
  else near - 1

theorem monthStart_monthIndex (d : ℤ) : monthStart (monthIndex d) ≤ d ∧ d < monthStart (monthIndex d + 1) := by
  have hbefore := (monthStart_near (4800 * d / 146097 - 1)).2
  have hafter := (monthStart_near (4800 * d / 146097 + 2)).1
  simp only [monthIndex]
  split_ifs with hnext hnear
  · rw [add_assoc]
    norm_num
    omega
  · exact ⟨hnear, not_le.1 hnext⟩
  · refine ⟨?_, ?_⟩
    · omega
    · rw [sub_add_cancel]
      exact not_le.1 hnear

/-- the Gregorian months -/
def months : Grid where
  start := monthStart
  index := monthIndex
  start_lt := monthStart_lt
  start_index_le d := (monthStart_monthIndex d).1
  lt_start_index d := (monthStart_monthIndex d).2

def quarters : Grid := months.coarsen 3 (by decide)

def years : Grid := months.coarsen 12 (by decide)

/-- a day some months later: the same day of the month, or its last one -/
def addMonths (n d : ℤ) : ℤ :=
  let first := monthStart (monthIndex d + n)
  first + min (d - monthStart (monthIndex d)) (monthStart (monthIndex d + n + 1) - first - 1)

/-- from the first of a month to the first of another -/
theorem addMonths_start (n m : ℤ) : addMonths n (monthStart m) = monthStart (m + n) := by
  have hindex : monthIndex (monthStart m) = m := months.index_start m
  have hlt := monthStart_lt (m + n)
  simp only [addMonths, hindex]
  omega

end Langbridge.Core.Calendar
