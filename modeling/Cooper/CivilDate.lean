import Mathlib.Tactic.Common

namespace Cooper.CivilDate

structure Civil where
  year : Int
  month : Int
  day : Int
  deriving DecidableEq

/-- Days before the first of March of the year 0, counted from the first of January 1970. -/
def epoch : Int := 719468

def monthStart (m : Int) : Int := (153 * m + 2) / 5

/-- The number of a day, where the first of January 1970 has the number 0. The day may lie outside
of the month. -/
def daysFromCivil (c : Civil) : Int :=
  let y := if c.month ≤ 2 then c.year - 1 else c.year
  let m := if c.month ≤ 2 then c.month + 9 else c.month - 3
  365 * y + y / 4 - y / 100 + y / 400 + monthStart m + (c.day - 1) - epoch

def fromMarch (y m : Int) (day : Int) : Civil :=
  if m < 10 then ⟨y, m + 3, day⟩ else ⟨y + 1, m - 9, day⟩

def civilFromDays (z : Int) : Civil :=
  let era := (z + epoch) / 146097
  let dayOfEra := (z + epoch) % 146097
  let century := min (dayOfEra / 36524) 3
  let dayOfCentury := dayOfEra - century * 36524
  let leap := dayOfCentury / 1461
  let dayOfLeap := dayOfCentury % 1461
  let year := min (dayOfLeap / 365) 3
  let dayOfYear := dayOfLeap - year * 365
  let month := (5 * dayOfYear + 2) / 153
  fromMarch (400 * era + 100 * century + 4 * leap + year) month
    (dayOfYear - monthStart month + 1)

theorem daysFromCivil_fromMarch {y m : Int} (hm : 0 ≤ m) (hm' : m ≤ 11) (day : Int) :
    daysFromCivil (fromMarch y m day) =
      365 * y + y / 4 - y / 100 + y / 400 + monthStart m + (day - 1) - epoch := by
  rw [fromMarch, daysFromCivil]
  by_cases hspring : m < 10
  · simp only [if_pos hspring, if_neg (show ¬m + 3 ≤ 2 by omega), Int.add_sub_cancel]
  · simp only [if_neg hspring, if_pos (show m - 9 ≤ 2 by omega), Int.add_sub_cancel,
      Int.sub_add_cancel]

theorem exists_parts (z : Int) :
    ∃ era century leap year dayOfYear : Int, 0 ≤ century ∧ century ≤ 3 ∧ 0 ≤ leap ∧ leap ≤ 24 ∧
      0 ≤ year ∧ year ≤ 3 ∧ 0 ≤ dayOfYear ∧ dayOfYear ≤ 365 ∧
      z + epoch = 146097 * era + 36524 * century + 1461 * leap + 365 * year + dayOfYear ∧
      civilFromDays z = fromMarch (400 * era + 100 * century + 4 * leap + year)
        ((5 * dayOfYear + 2) / 153) (dayOfYear - monthStart ((5 * dayOfYear + 2) / 153) + 1) := by
  refine ⟨_, _, _, _, _, ?_, ?_, ?_, ?_, ?_, ?_, ?_, ?_, ?_, rfl⟩
  all_goals omega

theorem daysFromCivil_civilFromDays (z : Int) : daysFromCivil (civilFromDays z) = z := by
  obtain ⟨era, century, leap, year, dayOfYear, hc, hc', hl, hl', hy, hy', hd, hd', hz, hcivil⟩ :=
    exists_parts z
  rw [hcivil, daysFromCivil_fromMarch (by omega) (by omega)]
  omega

theorem civilFromDays_range (z : Int) :
    1 ≤ (civilFromDays z).month ∧ (civilFromDays z).month ≤ 12 ∧
      1 ≤ (civilFromDays z).day ∧ (civilFromDays z).day ≤ 31 := by
  obtain ⟨era, century, leap, year, dayOfYear, hc, hc', hl, hl', hy, hy', hd, hd', hz, hcivil⟩ :=
    exists_parts z
  rw [hcivil, fromMarch, monthStart]
  split
  · simp only
    omega
  · simp only
    omega

example : civilFromDays 11016 = ⟨2000, 2, 29⟩ := by decide

end Cooper.CivilDate
