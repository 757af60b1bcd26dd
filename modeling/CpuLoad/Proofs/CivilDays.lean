import CpuLoad.Calendar
import CpuLoad.Timestamp
import Mathlib.Tactic.IntervalCases

/-!
The dates of the calendar and the days since the beginning of 1970. A day falls in a year that begins on the first of March
(`marchYear_spec`), and in a month of it (`exists_ofDay`). Its date is then one that there is, and as many days after the
beginning of the year 1 as the day is (`ofDay_spec`). Dates are in the order of their days (`dayNumber_lt`,
`before_of_lt`), so different days have different dates.
-/
namespace CpuLoad.CivilDays
open CpuLoad.Calendar CpuLoad.Timestamp

/-! ### Years -/

/-- The days of that many years from the first of March of the year zero on. -/
def marchDays (years : Nat) : Nat := 365 * years + years / 4 - years / 100 + years / 400

/-- The leap day of a year, if it has one. -/
def leapDays (year : Nat) : Nat := if isLeapYear year then 1 else 0

theorem leapDays_eq (year : Nat) :
    leapDays year + (if year % 100 = 0 then 1 else 0) =
      (if year % 4 = 0 then 1 else 0) + if year % 400 = 0 then 1 else 0 := by
  unfold leapDays isLeapYear
  by_cases four : year % 4 = 0
  · by_cases century : year % 100 = 0
    · by_cases era : year % 400 = 0 <;> simp [four, century, era]
    · have era : year % 400 ≠ 0 := by omega
      simp [four, century, era]
  · have century : year % 100 ≠ 0 := by omega
    have era : year % 400 ≠ 0 := by omega
    simp [four, century, era]

theorem leapDays_le (year : Nat) : leapDays year ≤ 1 := by
  unfold leapDays
  split <;> decide

theorem div_succ (n k : Nat) : (n + 1) / k = n / k + if (n + 1) % k = 0 then 1 else 0 := by
  simp only [Nat.succ_div, Nat.dvd_iff_mod_eq_zero]

theorem marchDays_succ (years : Nat) : marchDays (years + 1) = marchDays years + 365 + leapDays (years + 1) := by
  have leap := leapDays_eq (years + 1)
  have fewer : years / 100 ≤ years / 4 := Nat.div_le_div_left (by decide) (by decide)
  have once : (if (years + 1) % 100 = 0 then 1 else 0) ≤ 1 := by split <;> decide
  unfold marchDays
  rw [div_succ years 4, div_succ years 100, div_succ years 400]
  omega

theorem marchDays_add_eras (years eras : Nat) : marchDays (years + eras * 400) = marchDays years + 146097 * eras := by
  have fours : (years + eras * 400) / 4 = years / 4 + 100 * eras := by omega
  have centuries : (years + eras * 400) / 100 = years / 100 + 4 * eras := by omega
  have all : (years + eras * 400) / 400 = years / 400 + eras := by omega
  have fewer : years / 100 ≤ years / 4 := Nat.div_le_div_left (by decide) (by decide)
  unfold marchDays
  rw [fours, centuries, all]
  omega

/-- The year of an era in which a day of the era falls. Each era has one century with a day more than the others, and each
century one term of four years with a day less. -/
theorem yearOfEra_spec {day : Nat} (within : day < 146097) :
    let year := (day - day / 1460 + day / 36524 - day / 146096) / 365
    year < 400 ∧ marchDays year ≤ day ∧ day < marchDays (year + 1) := by
  intro year
  obtain rfl | earlier : day = 146096 ∨ day < 146096 := by omega
  · decide +kernel
  obtain ⟨century, century_eq⟩ : ∃ century, century = day / 36524 := ⟨_, rfl⟩
  obtain ⟨term, term_eq⟩ : ∃ term, term = day / 1460 := ⟨_, rfl⟩
  have year_eq : year = (day - term + century) / 365 := by
    have first : day / 146096 = 0 := by omega
    rw [century_eq, term_eq, ← Nat.sub_zero (_ + day / 36524), ← first]
  clear_value year
  have few : century < 4 := by omega
  have terms : year / 4 ≤ term ∧ term ≤ (year + 1) / 4 := by omega
  have same : year / 100 = century := by interval_cases century <;> omega
  unfold marchDays
  refine ⟨by omega, by omega, ?_⟩
  by_cases last : (year + 1) % 100 = 0
  · obtain ⟨n, centuries⟩ : ∃ n, year + 1 = 100 * n := ⟨(year + 1) / 100, by omega⟩
    have bound : n ≤ 4 := by omega
    interval_cases n <;> omega
  · have next : (year + 1) / 100 = year / 100 := by omega
    omega

/-- The year that begins on the first of March in which a day falls, both counted from the first of March of the year
zero, and the days of it before this one. -/
theorem marchYear_spec (day : Nat) :
    let dayOfEra := day % 146097
    let yearOfEra := (dayOfEra - dayOfEra / 1460 + dayOfEra / 36524 - dayOfEra / 146096) / 365
    let year := yearOfEra + day / 146097 * 400
    marchDays year ≤ day ∧ day < marchDays (year + 1) ∧
      dayOfEra - (365 * yearOfEra + yearOfEra / 4 - yearOfEra / 100) = day - marchDays year := by
  intro dayOfEra yearOfEra year
  obtain ⟨bound, least, most⟩ : yearOfEra < 400 ∧ marchDays yearOfEra ≤ dayOfEra ∧ dayOfEra < marchDays (yearOfEra + 1) :=
    yearOfEra_spec (Nat.mod_lt day (by decide))
  have split : day = 146097 * (day / 146097) + dayOfEra := (Nat.div_add_mod day 146097).symm
  have last : yearOfEra / 400 = 0 := Nat.div_eq_of_lt bound
  have start : marchDays yearOfEra = 365 * yearOfEra + yearOfEra / 4 - yearOfEra / 100 := by
    rw [marchDays, last, Nat.add_zero]
  have next : year + 1 = yearOfEra + 1 + day / 146097 * 400 := by omega
  rw [next, marchDays_add_eras, marchDays_add_eras, ← start]
  clear_value dayOfEra yearOfEra
  omega

/-! ### Months -/

/-- The days of a year from the first of March to the beginning of a month, counted from March on. -/
def monthDays (months : Nat) : Nat := (153 * months + 2) / 5

/-- The date of a day of a year that begins on the first of March, in a month that is counted from March on. -/
def dateIn (year months dayOfYear : Nat) : Date :=
  if months < 10 then ⟨year, months + 3, dayOfYear - monthDays months + 1⟩
  else ⟨year + 1, months - 9, dayOfYear - monthDays months + 1⟩

/-- The date of a day, of which the days before the first of March of the year zero are not counted. -/
theorem exists_ofDay (day : Nat) : ∃ year months dayOfYear, ofDay day = dateIn year months dayOfYear ∧
    day + 719468 = marchDays year + dayOfYear ∧ dayOfYear < 365 + leapDays (year + 1) ∧ months < 12 ∧
      monthDays months ≤ dayOfYear ∧ dayOfYear < monthDays (months + 1) := by
  obtain ⟨shifted, shifted_eq⟩ : ∃ n, day + 719468 = n := ⟨_, rfl⟩
  have counted : (day : Int) + daysTo1970 = (shifted : Int) := by
    unfold daysTo1970
    omega
  have eras : (shifted : Int) / daysInEra = ((shifted / 146097 : Nat) : Int) := by
    unfold daysInEra
    omega
  have within : ((shifted : Int) % daysInEra).toNat = shifted % 146097 := by
    unfold daysInEra
    omega
  obtain ⟨least, most, dayOfYear_eq⟩ := marchYear_spec shifted
  rw [marchDays_succ] at most
  unfold ofDay
  simp only [counted, eras, within, dayOfYear_eq, shifted_eq]
  generalize (shifted % 146097 - shifted % 146097 / 1460 + shifted % 146097 / 36524 - shifted % 146097 / 146096) / 365 =
    yearOfEra at *
  generalize shifted / 146097 = era at *
  have leap := leapDays_le (yearOfEra + era * 400 + 1)
  obtain ⟨dayOfYear, split⟩ : ∃ n, shifted = marchDays (yearOfEra + era * 400) + n := Nat.exists_eq_add_of_le least
  have rest : shifted - marchDays (yearOfEra + era * 400) = dayOfYear := by omega
  rw [rest]
  refine ⟨yearOfEra + era * 400, (5 * dayOfYear + 2) / 153, dayOfYear, ?_, split, by omega, by omega, ?_, ?_⟩
  · unfold dateIn
    by_cases early : (5 * dayOfYear + 2) / 153 < 10
    · have late : ¬ (5 * dayOfYear + 2) / 153 + 3 ≤ 2 := by omega
      simp [early, late, monthDays]
    · have soon : (5 * dayOfYear + 2) / 153 - 9 ≤ 2 := by omega
      simp [early, soon, monthDays]
  · unfold monthDays
    omega
  · unfold monthDays
    omega

/-- A date as a timestamp without a time of day. -/
def dated (d : Date) : Timestamp := ⟨d.year.toNat, d.month, d.day, none⟩

/-- The days of the months of a year before one of them. -/
def daysBefore (year month : Nat) : Nat := ((List.range (month - 1)).map fun m => daysOfMonth year (m + 1)).sum

theorem dayNumber_eq (t : Timestamp) : t.dayNumber = marchDays (t.year - 1) + daysBefore t.year t.month + t.day - 1 := by
  unfold dayNumber marchDays daysBefore
  rw [Nat.mul_comm 365]

theorem daysOfMonth_le (year month : Nat) : daysOfMonth year month ≤ 31 := by
  unfold daysOfMonth
  split
  · split <;> decide
  all_goals decide

theorem february (year : Nat) : daysOfMonth year 2 = 28 + leapDays year := by
  show (if isLeapYear year then 29 else 28) = _
  unfold leapDays
  split <;> rfl

theorem daysBefore_succ (year month : Nat) : daysBefore year (month + 2) = daysBefore year (month + 1) + daysOfMonth year (month + 1) := by
  simp [daysBefore, List.range_succ]

/-- The length of a month other than January and February. -/
theorem daysOfMonth_add_three (year : Nat) {months : Nat} (early : months < 10) :
    monthDays months + daysOfMonth year (months + 3) = monthDays (months + 1) := by
  interval_cases months <;> rfl

theorem daysBefore_add_three (year : Nat) {months : Nat} (early : months < 10) :
    daysBefore year (months + 3) = 59 + leapDays year + monthDays months := by
  induction months with
  | zero =>
    have first : daysBefore year 2 = 31 := rfl
    have march : daysBefore year 3 = daysBefore year 2 + daysOfMonth year 2 := daysBefore_succ year 1
    rw [march, first, february]
    show 31 + (28 + leapDays year) = 59 + leapDays year + 0
    omega
  | succ months ih =>
    have length := daysOfMonth_add_three year (Nat.lt_of_succ_lt early)
    have before := ih (Nat.lt_of_succ_lt early)
    have next : daysBefore year (months + 1 + 3) = daysBefore year (months + 3) + daysOfMonth year (months + 3) :=
      daysBefore_succ year (months + 2)
    omega

/-! ### Days and dates -/

theorem isDate_iff (t : Timestamp) : t.isDate ↔ (1 ≤ t.year ∧ t.year ≤ 9999) ∧ (1 ≤ t.month ∧ t.month ≤ 12) ∧
    1 ≤ t.day ∧ t.day ≤ daysOfMonth t.year t.month := by
  unfold isDate
  simp only [Bool.and_eq_true, decide_eq_true_eq, and_assoc]

/-- The date of a day of a year from the first of March on is one that there is, and tells that day. -/
theorem dateIn_spec {year months dayOfYear : Nat} (within : dayOfYear < 365 + leapDays (year + 1)) (few : months < 12)
    (least : monthDays months ≤ dayOfYear) (most : dayOfYear < monthDays (months + 1)) (positive : 1 ≤ year)
    (bound : marchDays year + dayOfYear < marchDays 9999 + 306) :
    (dated (dateIn year months dayOfYear)).isDate ∧
      (dated (dateIn year months dayOfYear)).dayNumber + 306 = marchDays year + dayOfYear := by
  rw [dayNumber_eq, isDate_iff]
  by_cases early : months < 10
  · obtain ⟨before, rfl⟩ : ∃ n, year = n + 1 := Nat.exists_eq_add_one.mpr positive
    have years : marchDays (before + 1) = _ := marchDays_succ before
    have length := daysOfMonth_add_three (before + 1) early
    have days := daysBefore_add_three (before + 1) early
    have short : before + 1 ≤ 9999 := by
      unfold marchDays at bound
      omega
    have date : dated (dateIn (before + 1) months dayOfYear) =
        ⟨before + 1, months + 3, dayOfYear - monthDays months + 1, none⟩ := by
      rw [dateIn, if_pos early]
      rfl
    rw [date]
    dsimp only
    rw [days, Nat.add_sub_cancel]
    omega
  · have short : year + 1 ≤ 9999 := by
      have late : monthDays 10 ≤ dayOfYear := le_trans (by unfold monthDays; omega) least
      unfold marchDays monthDays at *
      omega
    obtain rfl | rfl : months = 10 ∨ months = 11 := by omega
    · have start : monthDays 10 = 306 ∧ monthDays (10 + 1) = 337 := by decide
      have length : daysOfMonth (year + 1) 1 = 31 := rfl
      have days : daysBefore (year + 1) 1 = 0 := rfl
      have date : dated (dateIn year 10 dayOfYear) = ⟨year + 1, 1, dayOfYear - monthDays 10 + 1, none⟩ := rfl
      rw [date]
      dsimp only
      rw [days, Nat.add_sub_cancel]
      omega
    · have start : monthDays 11 = 337 := by decide
      have length := february (year + 1)
      have days : daysBefore (year + 1) 2 = 31 := rfl
      have date : dated (dateIn year 11 dayOfYear) = ⟨year + 1, 2, dayOfYear - monthDays 11 + 1, none⟩ := rfl
      rw [date]
      dsimp only
      rw [days, Nat.add_sub_cancel]
      omega

theorem year_dateIn {year months dayOfYear : Nat} (few : months < 12) :
    (dateIn year months dayOfYear).year = year + (months / 10 : Nat) := by
  unfold dateIn
  split <;> simp only [] <;> omega

/-- From 1970 on to the end of the year 9999, the date of a day is one that there is, and as many days after the beginning
of the year 1 as the day is after that of 1970. -/
theorem ofDay_spec {day : Nat} (bound : day < 2932897) :
    (dated (ofDay day)).isDate ∧ (dated (ofDay day)).dayNumber = day + 719162 ∧ 1970 ≤ (ofDay day).year := by
  obtain ⟨year, months, dayOfYear, date, shifted, within, few, least, most⟩ := exists_ofDay day
  have last : marchDays 9999 = 3652059 := by decide
  have leap := leapDays_le (year + 1)
  have recent : 1969 ≤ year := by
    unfold marchDays at shifted
    omega
  obtain ⟨real, number⟩ := dateIn_spec within few least most (by omega) (by omega)
  rw [date]
  refine ⟨real, by omega, ?_⟩
  rw [year_dateIn few]
  by_cases early : months < 10
  · have sooner : year ≠ 1969 := by
      rintro rfl
      have first : marchDays 1969 = 719162 := by decide
      unfold monthDays at most
      omega
    omega
  · omega

/-! ### The order of dates -/

/-- Whether a date comes before another one: by its year, then by its month and then by its day. -/
def Before (d e : Date) : Prop :=
  d.year < e.year ∨ d.year = e.year ∧ (d.month < e.month ∨ d.month = e.month ∧ d.day < e.day)

theorem not_before_iff {d e : Date} : ¬ Before d e ↔ d = e ∨ Before e d := by
  obtain ⟨y, m, n⟩ := d
  obtain ⟨y', m', n'⟩ := e
  simp only [Before, Date.mk.injEq]
  omega

theorem daysBefore_mono (year : Nat) {month later : Nat} (positive : 1 ≤ month) (after : month < later) :
    daysBefore year month + daysOfMonth year month ≤ daysBefore year later := by
  obtain ⟨m, rfl⟩ : ∃ m, month = m + 1 := Nat.exists_eq_add_one.mpr positive
  induction later, after using Nat.le_induction with
  | base => exact le_of_eq (daysBefore_succ year m).symm
  | succ later after ih =>
    obtain ⟨n, rfl⟩ : ∃ n, later = n + 1 := Nat.exists_eq_add_one.mpr (by omega)
    have next : daysBefore year (n + 1 + 1) = _ := daysBefore_succ year n
    omega

theorem marchDays_mono {years more : Nat} (fewer : years ≤ more) : marchDays years ≤ marchDays more := by
  induction more, fewer using Nat.le_induction with
  | base => exact le_rfl
  | succ more _ ih =>
    have next := marchDays_succ more
    omega

/-- No day of a year comes after its last one. -/
theorem daysBefore_le (year : Nat) {month : Nat} (positive : 1 ≤ month) (most : month ≤ 12) :
    daysBefore year month + daysOfMonth year month ≤ 365 + leapDays year := by
  have december : daysBefore year 12 = 59 + leapDays year + monthDays 9 := daysBefore_add_three year (by decide)
  have start : monthDays 9 = 275 := by decide
  have length : daysOfMonth year 12 = 31 := rfl
  obtain rfl | earlier : month = 12 ∨ month < 12 := by omega
  · omega
  · have before := daysBefore_mono year positive earlier
    omega

/-- Dates that there are come in the order of their days. -/
theorem dayNumber_lt {d e : Date} (real : (dated d).isDate) (real' : (dated e).isDate) (before : Before d e) :
    (dated d).dayNumber < (dated e).dayNumber := by
  rw [dayNumber_eq, dayNumber_eq]
  obtain ⟨⟨least, _⟩, ⟨first, last⟩, start, most⟩ := (isDate_iff _).mp real
  obtain ⟨⟨least', _⟩, ⟨first', last'⟩, start', most'⟩ := (isDate_iff _).mp real'
  rcases before with sooner | ⟨same, sooner | ⟨month, sooner⟩⟩
  · have years : (dated d).year < (dated e).year := by
      unfold dated at *
      dsimp only at *
      omega
    obtain ⟨y, year⟩ : ∃ y, (dated d).year = y + 1 := Nat.exists_eq_add_one.mpr least
    have within := daysBefore_le (dated d).year first last
    have next : marchDays (y + 1) = _ := marchDays_succ y
    have later : marchDays (y + 1) ≤ marchDays ((dated e).year - 1) := marchDays_mono (by omega)
    rw [year] at within most ⊢
    rw [Nat.add_sub_cancel]
    omega
  · have years : (dated d).year = (dated e).year := congrArg Int.toNat same
    have within := daysBefore_mono (dated d).year first (show (dated d).month < (dated e).month from sooner)
    rw [years] at within most ⊢
    omega
  · have years : (dated d).year = (dated e).year := congrArg Int.toNat same
    have months : (dated d).month = (dated e).month := month
    have days : (dated d).day < (dated e).day := sooner
    rw [years, months]
    omega

theorem before_of_lt {d e : Date} (real : (dated d).isDate) (real' : (dated e).isDate)
    (sooner : (dated d).dayNumber < (dated e).dayNumber) : Before d e := by
  by_contra later
  rcases not_before_iff.mp later with rfl | before
  · exact lt_irrefl _ sooner
  · exact lt_asymm sooner (dayNumber_lt real' real before)

end CpuLoad.CivilDays
