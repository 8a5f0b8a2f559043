import MinicoreAgent.HistoryRecord
import MinicoreAgent.Lib.Calendar
import MinicoreAgent.Lib.Digits

/-!
# Timestamps of records

An instant is a count of seconds since 1970 and of milliseconds. The days of it are brought
to a date in eras of 400 years that begin in March, so that the day of a leap year is the
last one of a year. The formatted text is read back by the validator of history records.
-/
namespace MinicoreAgent.Time

open Calendar Digits Text

section Model

def yearOfEra (dayOfEra : Int) : Int :=
  (dayOfEra - dayOfEra / 1460 + dayOfEra / 36524 - dayOfEra / 146096) / 365

/-- The days of an era before one of its years. -/
def yearStart (yearOfEra : Int) : Int := 365 * yearOfEra + yearOfEra / 4 - yearOfEra / 100

/-- The days of a year before one of its months. The first month is March. -/
def monthStart (monthPrime : Int) : Int := (153 * monthPrime + 2) / 5

def civilMonth (monthPrime : Int) : Int :=
  if monthPrime < 10 then monthPrime + 3 else monthPrime - 9

/-- January and February belong to the next year. -/
def civilYear (year month : Int) : Int := if month ≤ 2 then year + 1 else year

/-- Howard Hinnant's `civil_from_days` algorithm. -/
def civilFromDays (days : Int) : Int × Nat × Nat :=
  let z := days + 719468
  let era := z / 146097
  let dayOfEra := z % 146097
  let yearOfEra := yearOfEra dayOfEra
  let year := yearOfEra + era * 400
  let dayOfYear := dayOfEra - yearStart yearOfEra
  let monthPrime := (5 * dayOfYear + 2) / 153
  let day := dayOfYear - monthStart monthPrime + 1
  let month := civilMonth monthPrime
  (civilYear year month, month.toNat, day.toNat)

/-- `i64::try_from(total_seconds).unwrap_or(0)`. -/
def toSigned (totalSeconds : Nat) : Int := if totalSeconds < 2 ^ 63 then totalSeconds else 0

def secsPerDay : Int := 86400

def formatRfc3339Millis (totalSeconds millis : Nat) : List Char :=
  let days := toSigned totalSeconds / secsPerDay
  let secondsOfDay := toSigned totalSeconds % secsPerDay
  let (year, month, day) := civilFromDays days
  let hour := secondsOfDay / 3600
  let minute := (secondsOfDay % 3600) / 60
  let second := secondsOfDay % 60
  pad 4 year.toNat ++ ['-'] ++ pad 2 month ++ ['-'] ++ pad 2 day ++ ['T'] ++ pad 2 hour.toNat ++
    [':'] ++ pad 2 minute.toNat ++ [':'] ++ pad 2 second.toNat ++ ['.'] ++ pad 3 millis ++ ['Z']

end Model

section Years

variable {century four single : Int}

/-- A year of an era as a century, a group of four years in it, and one of the four. -/
theorem year_parts {year : Int} (low : 0 ≤ year) (high : year ≤ 399) :
    ∃ century four single : Int, year = 100 * century + 4 * four + single ∧
      0 ≤ century ∧ century ≤ 3 ∧ 0 ≤ four ∧ four ≤ 24 ∧ 0 ≤ single ∧ single ≤ 3 :=
  ⟨year / 100, year % 100 / 4, year % 4, by omega⟩

theorem year_start_parts (low : 0 ≤ four) (high : four ≤ 24) (least : 0 ≤ single)
    (most : single ≤ 3) :
    yearStart (100 * century + 4 * four + single) =
      36524 * century + 1461 * four + 365 * single := by
  rw [yearStart]
  omega

theorem leap_iff (year : Int) :
    leap year = true ↔ year % 400 = 0 ∨ year % 4 = 0 ∧ year % 100 ≠ 0 := by
  rw [leap, Bool.or_eq_true, Bool.and_eq_true, decide_eq_true_iff, decide_eq_true_iff,
    decide_eq_true_iff]

/-- The last of four years ends with a leap day, but not that of the first three centuries. -/
theorem leap_parts (early : 0 ≤ century) (late : century ≤ 3) (low : 0 ≤ four)
    (high : four ≤ 24) (least : 0 ≤ single) (most : single ≤ 3) :
    leap (100 * century + 4 * four + single + 1) = true ↔
      single = 3 ∧ (four < 24 ∨ century = 3) := by
  rw [leap_iff]
  omega

/-- The divisors of the code count the leap days before a day: the centuries, then the groups
of four years, of which the one before a leap day can be one too many. -/
theorem year_of_era_parts {rest : Int} (early : 0 ≤ century) (late : century ≤ 3)
    (low : 0 ≤ four) (high : four ≤ 24) (least : 0 ≤ single) (most : single ≤ 3)
    (starts : 0 ≤ rest)
    (ends : rest ≤ 364 ∨ rest = 365 ∧ single = 3 ∧ (four < 24 ∨ century = 3)) :
    yearOfEra (36524 * century + 1461 * four + 365 * single + rest) =
      100 * century + 4 * four + single := by
  have inner : 0 ≤ 1461 * four + 365 * single + rest ∧
      (1461 * four + 365 * single + rest ≤ 36523 ∨
        1461 * four + 365 * single + rest = 36524 ∧ century = 3) := by
    omega
  have centuries : (36524 * century + 1461 * four + 365 * single + rest) / 36524 -
      (36524 * century + 1461 * four + 365 * single + rest) / 146096 = century := by
    have whole : 36524 * century + 1461 * four + 365 * single + rest =
        36524 * century + (1461 * four + 365 * single + rest) := by
      omega
    rw [whole]
    generalize 1461 * four + 365 * single + rest = days at inner
    omega
  obtain ⟨extra, quarters, small, last⟩ : ∃ extra,
      (36524 * century + 1461 * four + 365 * single + rest) / 1460 =
        25 * century + four + extra ∧
      (extra = 0 ∨ extra = 1 ∧ single = 3 ∧ 1 ≤ rest) ∧ (rest = 365 → extra = 1) :=
    ⟨(24 * century + four + 365 * single + rest) / 1460, by omega, by omega⟩
  rw [yearOfEra, quarters]
  omega

/-- The days from March of a year to the next February. -/
def yearLength (year : Int) : Int := if leap (year + 1) then 366 else 365

/-- A day between the start of a year and the start of the next one lies in that year. -/
theorem year_of_era_eq {year dayOfYear : Int} (low : 0 ≤ year) (high : year ≤ 399)
    (starts : 0 ≤ dayOfYear) (ends : dayOfYear < yearLength year) :
    yearOfEra (yearStart year + dayOfYear) = year ∧ yearStart year + dayOfYear < 146097 := by
  obtain ⟨century, four, single, rfl, early, late, least, most, first, last⟩ :=
    year_parts low high
  have leaps := leap_parts early late least most first last
  rw [yearLength] at ends
  rw [year_start_parts least most first last]
  have inside : dayOfYear ≤ 364 ∨
      dayOfYear = 365 ∧ single = 3 ∧ (four < 24 ∨ century = 3) := by
    split at ends
    · rename_i leap_day
      have whole := leaps.mp leap_day
      omega
    · omega
  exact ⟨year_of_era_parts early late least most first last starts inside, by omega⟩

theorem leap_of_era (year : Int) : leap (year % 400 + 1) = leap (year + 1) := by
  rw [Bool.eq_iff_iff, leap_iff, leap_iff]
  omega

theorem year_length_of_era (year : Int) : yearLength (year % 400) = yearLength year := by
  rw [yearLength, yearLength, leap_of_era]

/-- The years follow one another, also from one era to the next. -/
theorem year_start_next (year : Int) :
    146097 * ((year + 1) / 400) + yearStart ((year + 1) % 400) =
      146097 * (year / 400) + yearStart (year % 400) + yearLength year := by
  have leaps := leap_iff (year + 1)
  rw [yearLength, yearStart, yearStart]
  split
  · rename_i leap_day
    have whole := leaps.mp leap_day
    omega
  · rename_i none
    have whole := (not_congr leaps).mp none
    omega

end Years

section Months

/-- The length of the month at a place of a year that begins in March. -/
def monthDays (year monthPrime : Int) : Nat :=
  monthLength (civilYear year (civilMonth monthPrime)) (civilMonth monthPrime).toNat

theorem month_cases {monthPrime : Int} (low : 0 ≤ monthPrime) (high : monthPrime ≤ 10) :
    monthPrime = 0 ∨ monthPrime = 1 ∨ monthPrime = 2 ∨ monthPrime = 3 ∨ monthPrime = 4 ∨
      monthPrime = 5 ∨ monthPrime = 6 ∨ monthPrime = 7 ∨ monthPrime = 8 ∨ monthPrime = 9 ∨
      monthPrime = 10 := by
  omega

/-- Up to January each month starts where the one before it ends. -/
theorem month_start_next (year : Int) {monthPrime : Int} (low : 0 ≤ monthPrime)
    (high : monthPrime ≤ 10) :
    monthStart (monthPrime + 1) = monthStart monthPrime + monthDays year monthPrime := by
  obtain rfl | rfl | rfl | rfl | rfl | rfl | rfl | rfl | rfl | rfl | rfl := month_cases low high
  all_goals rfl

/-- February ends the year. -/
theorem february_ends (year : Int) : monthStart 11 + monthDays year 11 = yearLength year := by
  rw [yearLength]
  change 337 + ((if leap (year + 1) then 29 else 28 : Nat) : Int) = _
  split
  · rfl
  · rfl

theorem month_prime_eq {monthPrime index : Int}
    (low : 0 ≤ index) (inside : monthStart monthPrime + index < monthStart (monthPrime + 1)) :
    (5 * (monthStart monthPrime + index) + 2) / 153 = monthPrime := by
  rw [monthStart] at inside ⊢
  rw [monthStart] at inside
  omega

end Months

section Civil

/-- Where a day lies: in which year from March on, in which month of it, and after how many
days of the month. -/
structure Marks (days year monthPrime index : Int) : Prop where
  month_low : 0 ≤ monthPrime
  month_high : monthPrime ≤ 11
  day_low : 0 ≤ index
  day_high : index < monthDays year monthPrime
  sum : days + 719468 =
    146097 * (year / 400) + yearStart (year % 400) + monthStart monthPrime + index

/-- The date of a place in the year. -/
def civilDate (year monthPrime index : Int) : Date :=
  ⟨civilYear year (civilMonth monthPrime), (civilMonth monthPrime).toNat, (index + 1).toNat⟩

variable {days year monthPrime index : Int}

theorem Marks.inside_month (marks : Marks days year monthPrime index) :
    monthStart monthPrime + index < monthStart (monthPrime + 1) := by
  have length := marks.day_high
  rcases Int.lt_or_le 10 monthPrime with last | earlier
  · have february : monthPrime = 11 := by
      have high := marks.month_high
      omega
    subst february
    have whole := february_ends year
    rw [yearLength] at whole
    change monthStart 11 + index < 367
    split at whole <;> omega
  · rw [month_start_next year marks.month_low earlier]
    omega

theorem Marks.inside_year (marks : Marks days year monthPrime index) :
    monthStart monthPrime + index < yearLength year := by
  have length := marks.day_high
  rcases Int.lt_or_le 10 monthPrime with last | earlier
  · have february : monthPrime = 11 := by
      have high := marks.month_high
      omega
    subst february
    have whole := february_ends year
    omega
  · have inside := marks.inside_month
    have least : 365 ≤ yearLength year := by
      rw [yearLength]
      split <;> omega
    rw [monthStart, monthStart] at inside
    rw [monthStart]
    omega

/-- The code finds the place of a day. -/
theorem Marks.civil (marks : Marks days year monthPrime index) :
    civilFromDays days = ((civilDate year monthPrime index).year,
      (civilDate year monthPrime index).month, (civilDate year monthPrime index).day) := by
  have month := marks.inside_month
  have whole := marks.inside_year
  have starts : 0 ≤ monthStart monthPrime + index := by
    have low := marks.month_low
    have day := marks.day_low
    rw [monthStart]
    omega
  have low : 0 ≤ year % 400 := Int.emod_nonneg _ (by decide)
  have high : year % 400 ≤ 399 := by omega
  rw [← year_length_of_era] at whole
  obtain ⟨years, era⟩ := year_of_era_eq low high starts whole
  have first : 0 ≤ yearStart (year % 400) := by
    rw [yearStart]
    omega
  have sum := marks.sum
  have quotient : (days + 719468) / 146097 = year / 400 := by omega
  have remainder : (days + 719468) % 146097 =
      yearStart (year % 400) + (monthStart monthPrime + index) := by omega
  have place := month_prime_eq marks.day_low month
  have back : year % 400 + year / 400 * 400 = year := Int.emod_add_ediv_mul year 400
  have dayOfYear : yearStart (year % 400) + (monthStart monthPrime + index) -
      yearStart (year % 400) = monthStart monthPrime + index := by omega
  have dayOfMonth : monthStart monthPrime + index - monthStart monthPrime = index := by omega
  rw [civilFromDays, civilDate]
  simp only [quotient, remainder, years, dayOfYear, place, back, dayOfMonth]

/-- The first of a month after a month, which is in the next civil year behind December. -/
theorem civil_date_next (year : Int) {monthPrime : Int} (low : 0 ≤ monthPrime)
    (high : monthPrime ≤ 10) :
    civilDate year (monthPrime + 1) 0 =
      if (civilMonth monthPrime).toNat < 12 then
        ⟨civilYear year (civilMonth monthPrime), (civilMonth monthPrime).toNat + 1, 1⟩
      else ⟨civilYear year (civilMonth monthPrime) + 1, 1, 1⟩ := by
  obtain rfl | rfl | rfl | rfl | rfl | rfl | rfl | rfl | rfl | rfl | rfl := month_cases low high
  all_goals rfl

/-- The place of the next day, which has tomorrow's date. -/
theorem Marks.tomorrow (marks : Marks days year monthPrime index) :
    ∃ nextYear nextMonth nextIndex, Marks (days + 1) nextYear nextMonth nextIndex ∧
      civilDate nextYear nextMonth nextIndex = (civilDate year monthPrime index).tomorrow := by
  obtain ⟨month_low, month_high, day_low, day_high, sum⟩ := marks
  have day : (civilDate year monthPrime index).day = (index + 1).toNat := rfl
  have length : monthLength (civilDate year monthPrime index).year
      (civilDate year monthPrime index).month = monthDays year monthPrime := rfl
  rw [Date.tomorrow, length, day]
  split
  · -- The day after is in the same month.
    rename_i inside
    refine ⟨year, monthPrime, index + 1,
      ⟨month_low, month_high, by omega, by omega, by omega⟩, ?_⟩
    rw [civilDate, civilDate]
    congr 1
    omega
  · rename_i last
    have first : (index : Int) + 1 = monthDays year monthPrime := by omega
    rcases Int.lt_or_le monthPrime 11 with earlier | february
    · -- The day after is in the next month.
      have next := month_start_next year month_low (by omega)
      have some : 1 ≤ monthDays year (monthPrime + 1) := month_length_pos _ _
      exact ⟨year, monthPrime + 1, 0,
        ⟨by omega, by omega, Int.le_refl 0, by omega, by omega⟩,
        civil_date_next year month_low (by omega)⟩
    · -- The day after is the first of March.
      obtain rfl : monthPrime = 11 := by omega
      have ends := february_ends year
      have next := year_start_next year
      have march : monthStart 0 = 0 := rfl
      have some : 1 ≤ monthDays (year + 1) 0 := month_length_pos _ _
      exact ⟨year + 1, 0, 0,
        ⟨Int.le_refl 0, by decide, Int.le_refl 0, by omega, by omega⟩, rfl⟩

/-- The first day of the count: in January, the eleventh month from March 1969 on. -/
def epoch : Date := ⟨1970, 1, 1⟩

theorem marks_after (days : Nat) :
    ∃ year monthPrime index, Marks days year monthPrime index ∧
      civilDate year monthPrime index = epoch.after days := by
  induction days with
  | zero => exact ⟨1969, 10, 0, ⟨by decide, by decide, by decide, by decide, by decide⟩, rfl⟩
  | succ days inductionHypothesis =>
    obtain ⟨year, monthPrime, index, marks, date⟩ := inductionHypothesis
    obtain ⟨nextYear, nextMonth, nextIndex, next, tomorrow⟩ := marks.tomorrow
    rw [date] at tomorrow
    exact ⟨nextYear, nextMonth, nextIndex, next, tomorrow⟩

/-- The algorithm gives the date of every day since the epoch. -/
theorem civil_from_days_after (days : Nat) :
    civilFromDays days =
      ((epoch.after days).year, (epoch.after days).month, (epoch.after days).day) := by
  obtain ⟨year, monthPrime, index, marks, date⟩ := marks_after days
  rw [marks.civil, date]

end Civil

section Instants

/-- The seconds from the epoch to the year 10000. -/
def secondsBefore10000 : Nat := 253402300800

/-- The year 10000 begins with that second, so every date before it has a year of four
digits. -/
theorem year_before_10000 {days : Nat} (before : days < secondsBefore10000 / 86400) :
    1970 ≤ (epoch.after days).year ∧ (epoch.after days).year < 10000 := by
  have valid : epoch.Valid := ⟨by decide, by decide, by decide, by decide⟩
  have current := valid.after days
  have turn : epoch.after (secondsBefore10000 / 86400) = ⟨10000, 1, 1⟩ := by
    have found := civil_from_days_after (secondsBefore10000 / 86400)
    have date : civilFromDays (secondsBefore10000 / 86400 : Nat) = (10000, 1, 1) := by decide
    rw [date] at found
    generalize epoch.after (secondsBefore10000 / 86400) = later at found
    cases later
    cases found
    rfl
  have earlier := epoch.after_before before
  rw [turn] at earlier
  have month := current.month_pos
  have day := current.day_pos
  refine ⟨?_, ?_⟩
  · rcases Nat.eq_zero_or_pos days with zero | positive
    · rw [zero]
      decide
    · have later := epoch.after_before positive
      rcases later with year | ⟨year, _⟩
      · exact Int.le_of_lt year
      · exact Int.le_of_eq year
  · rcases earlier with year | ⟨_, first | ⟨_, first⟩⟩
    · exact year
    · exact absurd month (Nat.not_le_of_lt first)
    · exact absurd day (Nat.not_le_of_lt first)

/-- The columns of a timestamp. -/
def columns (totalSeconds millis : Nat) : List Column :=
  let date := epoch.after (totalSeconds / 86400)
  [⟨4, date.year.toNat, '-'⟩, ⟨2, date.month, '-'⟩, ⟨2, date.day, 'T'⟩,
    ⟨2, totalSeconds % 86400 / 3600, ':'⟩, ⟨2, totalSeconds % 3600 / 60, ':'⟩,
    ⟨2, totalSeconds % 60, '.'⟩, ⟨3, millis, 'Z'⟩]

theorem day_le_31 {date : Date} (valid : date.Valid) : date.day ≤ 31 := by
  refine Nat.le_trans valid.day_le ?_
  rw [monthLength]
  split
  · split <;> decide
  · split <;> decide

theorem epoch_valid (days : Nat) : (epoch.after days).Valid :=
  Date.Valid.after ⟨by decide, by decide, by decide, by decide⟩ days

/-- Before the year 10000 every number fits its column. -/
theorem format_columns {totalSeconds millis : Nat} (before : totalSeconds < secondsBefore10000)
    (small : millis < 1000) :
    formatRfc3339Millis totalSeconds millis =
      (columns totalSeconds millis).flatMap Column.text := by
  have days : totalSeconds / 86400 < secondsBefore10000 / 86400 := by
    rw [secondsBefore10000] at before ⊢
    omega
  obtain ⟨least, most⟩ := year_before_10000 days
  have valid := epoch_valid (totalSeconds / 86400)
  have month := valid.month_le
  have day := day_le_31 valid
  have signed : toSigned totalSeconds = totalSeconds := by
    rw [toSigned, if_pos]
    rw [secondsBefore10000] at before
    omega
  have quotient : (totalSeconds : Int) / secsPerDay = ((totalSeconds / 86400 : Nat) : Int) := rfl
  have hour : ((totalSeconds : Int) % secsPerDay / 3600).toNat = totalSeconds % 86400 / 3600 := rfl
  have minute : ((totalSeconds : Int) % secsPerDay % 3600 / 60).toNat =
      totalSeconds % 3600 / 60 := by
    rw [secsPerDay]
    omega
  have second : ((totalSeconds : Int) % secsPerDay % 60).toNat = totalSeconds % 60 := by
    rw [secsPerDay]
    omega
  rw [formatRfc3339Millis, signed, quotient, civil_from_days_after]
  dsimp only
  rw [hour, minute, second, columns]
  rw [pad_eq (by decide) (by omega), pad_eq (by decide) (by omega), pad_eq (by decide) (by omega),
    pad_eq (by decide) (by omega), pad_eq (by decide) (by omega), pad_eq (by decide) (by omega),
    pad_eq (by decide) (by omega)]
  simp [Column.text]

/-- Times of one day come to a greater column where the later time does. -/
theorem columns_less_of_day {first second firstMillis secondMillis : Nat}
    (same : first / 86400 = second / 86400)
    (later : first < second ∨ first = second ∧ firstMillis < secondMillis)
    (small : secondMillis < 1000) :
    Less (columns first firstMillis) (columns second secondMillis) := by
  rw [columns, columns, same]
  refine .later _ (.later _ (.later _ ?_))
  rcases Nat.lt_trichotomy (first % 86400 / 3600) (second % 86400 / 3600) with less | hour | more
  · exact .here less (by omega) _ _
  · rw [hour]
    refine .later _ ?_
    rcases Nat.lt_trichotomy (first % 3600 / 60) (second % 3600 / 60) with less | minute | more
    · exact .here less (by omega) _ _
    · rw [minute]
      refine .later _ ?_
      rcases later with less | ⟨equal, less⟩
      · exact .here (by omega) (by omega) _ _
      · rw [equal]
        exact .later _ (.here less small _ _)
    · omega
  · omega

/-- A later instant comes to a greater column first. -/
theorem columns_less {first second firstMillis secondMillis : Nat}
    (before : second < secondsBefore10000) (small : secondMillis < 1000)
    (later : first < second ∨ first = second ∧ firstMillis < secondMillis) :
    Less (columns first firstMillis) (columns second secondMillis) := by
  have days : second / 86400 < secondsBefore10000 / 86400 := by
    rw [secondsBefore10000] at before ⊢
    omega
  obtain ⟨least, most⟩ := year_before_10000 days
  have valid := epoch_valid (second / 86400)
  have month := valid.month_le
  have day := day_le_31 valid
  rcases Nat.lt_or_ge (first / 86400) (second / 86400) with earlier | same
  · rw [columns, columns]
    have date := epoch.after_before earlier
    have start := (year_before_10000 (Nat.lt_trans earlier days)).1
    rcases date with year | ⟨year, months | ⟨months, less⟩⟩
    · exact .here (by omega) (by omega) _ _
    · rw [year]
      exact .later _ (.here months (by omega) _ _)
    · rw [year, months]
      exact .later _ (.later _ (.here less (by omega) _ _))
  · exact columns_less_of_day (by omega) later small

end Instants

section Reading

open HistoryStore

variable {bytes before after : List UInt8} {width value start stop : Nat}

theorem digits_are (width value : Nat) :
    ∀ byte ∈ digitBytes width value, isDigit byte = true := by
  intro byte member
  rw [isDigit, Bool.and_eq_true, decide_eq_true_iff, decide_eq_true_iff]
  exact digit_bytes_are width value byte member

/-- The number in a column is read back. -/
theorem number_at (parts : bytes = before ++ digitBytes width value ++ after)
    (starts : before.length = start) (stops : start + width = stop) (fits : value < 10 ^ width) :
    number bytes start stop = some value := by
  have length := digit_bytes_length width value
  have cut : slice bytes start stop = some (digitBytes width value) := by
    rw [slice, parts, if_pos, List.append_assoc, ← starts, List.drop_left, List.take_left']
    · omega
    · rw [List.length_append, List.length_append]
      omega
  have all : (digitBytes width value).all isDigit = true :=
    List.all_eq_true.mpr (digits_are width value)
  rw [number, cut, Option.filter_some, if_pos all, Option.map_some, digit_bytes_value fits]

theorem mark_at {mark : UInt8} (parts : bytes = before ++ mark :: after)
    (starts : before.length = start) : bytes[start]? = some mark := by
  rw [parts, ← starts, List.getElem?_append_right (Nat.le_refl _), Nat.sub_self]
  rfl

/-- The bytes of some columns. -/
def columnBytes (columns : List Column) : List UInt8 := encode (columns.flatMap Column.text)

/-- Where each mark is one byte, the columns have their widths and a byte more. -/
theorem column_bytes_length {columns : List Column}
    (ascii : ∀ column ∈ columns, (encode [column.mark]).length = 1) :
    (columnBytes columns).length = (columns.map fun column => column.width + 1).sum := by
  induction columns with
  | nil => rfl
  | cons column rest inductionHypothesis =>
    have later := inductionHypothesis
      (fun other member => ascii other (List.mem_cons_of_mem _ member))
    rw [columnBytes] at later
    rw [columnBytes, List.flatMap_cons, encode_append, List.length_append, later, Column.text,
      encode_append, List.length_append, encode_last_digits, digit_bytes_length,
      ascii column (List.mem_cons_self ..), List.map_cons, List.sum_cons]

/-- A column begins where the ones before it end. -/
theorem column_parts (columns front : List Column) (start : Nat) {rest : List Column}
    {column : Column} {mark : UInt8}
    (parts : columns = front ++ column :: rest)
    (ascii : ∀ column ∈ columns, (encode [column.mark]).length = 1)
    (single : encode [column.mark] = [mark])
    (starts : (front.map fun column => column.width + 1).sum = start) :
    columnBytes columns = columnBytes front ++ digitBytes column.width column.value ++
        mark :: columnBytes rest ∧
      (columnBytes front).length = start := by
  constructor
  · rw [parts, columnBytes, List.flatMap_append, List.flatMap_cons, encode_append, encode_append,
      Column.text, encode_append, encode_last_digits, single]
    simp [columnBytes]
  · rw [column_bytes_length, starts]
    intro other member
    exact ascii other (by rw [parts]; exact List.mem_append_left _ member)

/-- A column is read back: its number, and the mark behind it. -/
theorem column_at (columns front : List Column) (start stop : Nat) {rest : List Column}
    {column : Column} {mark : UInt8} (parts : columns = front ++ column :: rest)
    (ascii : ∀ column ∈ columns, (encode [column.mark]).length = 1)
    (single : encode [column.mark] = [mark]) (fits : column.value < 10 ^ column.width)
    (starts : (front.map fun column => column.width + 1).sum = start)
    (stops : start + column.width = stop) :
    number (columnBytes columns) start stop = some column.value ∧
      (columnBytes columns)[stop]? = some mark := by
  obtain ⟨whole, length⟩ := column_parts columns front start parts ascii single starts
  refine ⟨number_at whole length stops fits, mark_at whole ?_⟩
  rw [List.length_append, length, digit_bytes_length, stops]

/-- The digits of a column end at its mark. -/
theorem digits_end {mark : UInt8} (width value : Nat) (rest : List UInt8)
    (other : isDigit mark = false) :
    ((digitBytes width value ++ mark :: rest).takeWhile isDigit).length = width := by
  rw [List.takeWhile_append_of_pos (digits_are width value), List.takeWhile_cons_of_neg,
    List.append_nil, digit_bytes_length]
  rw [other]
  exact Bool.false_ne_true

/-- The validator and the calendar agree on the lengths of the months. -/
theorem days_in_month_eq (year : Nat) {month : Nat} (positive : 1 ≤ month) (most : month ≤ 12) :
    daysInMonth year month = monthLength year month := by
  have leaps : leap year = true ↔ year % 400 = 0 ∨ year % 4 = 0 ∧ year % 100 ≠ 0 := by
    rw [leap_iff]
    omega
  rw [daysInMonth, monthLength]
  have names : month = 1 ∨ month = 2 ∨ month = 3 ∨ month = 4 ∨ month = 5 ∨ month = 6 ∨
      month = 7 ∨ month = 8 ∨ month = 9 ∨ month = 10 ∨ month = 11 ∨ month = 12 := by omega
  rcases names with rfl | rfl | rfl | rfl | rfl | rfl | rfl | rfl | rfl | rfl | rfl | rfl
  case inr.inl =>
    change (if year % 400 = 0 ∨ year % 4 = 0 ∧ year % 100 ≠ 0 then 29 else 28) =
      if leap year then 29 else 28
    simp only [leaps]
  all_goals rfl

theorem columns_ascii (totalSeconds millis : Nat) :
    ∀ column ∈ columns totalSeconds millis, (encode [column.mark]).length = 1 := by
  intro column member
  simp only [columns, List.mem_cons, List.not_mem_nil, or_false] at member
  rcases member with rfl | rfl | rfl | rfl | rfl | rfl | rfl
  all_goals rfl

/-- The validator accepts the columns of every instant before the year 10000. -/
theorem columns_accepted {totalSeconds millis : Nat} (before : totalSeconds < secondsBefore10000)
    (small : millis < 1000) :
    validTimestamp (String.ofList ((columns totalSeconds millis).flatMap Column.text)) = true := by
  have days : totalSeconds / 86400 < secondsBefore10000 / 86400 := by
    rw [secondsBefore10000] at before ⊢
    omega
  obtain ⟨least, most⟩ := year_before_10000 days
  have valid := epoch_valid (totalSeconds / 86400)
  have day_31 := day_le_31 valid
  obtain ⟨month_pos, month_le, day_pos, day_le⟩ := valid
  have ascii := columns_ascii totalSeconds millis
  have dash : encode ['-'] = [45] := by decide
  have time : encode ['T'] = [84] := by decide
  have colon : encode [':'] = [58] := by decide
  have point : encode ['.'] = [46] := by decide
  have zone : encode ['Z'] = [90] := by decide
  obtain ⟨year, yearDash⟩ := column_at (columns totalSeconds millis) [] 0 4
    rfl ascii dash (by dsimp only; omega) rfl rfl
  obtain ⟨month, monthDash⟩ := column_at (columns totalSeconds millis) [_] 5 7
    rfl ascii dash (by dsimp only; omega) rfl rfl
  obtain ⟨day, dayTime⟩ := column_at (columns totalSeconds millis) [_, _] 8 10
    rfl ascii time (by dsimp only; omega) rfl rfl
  obtain ⟨hour, hourColon⟩ := column_at (columns totalSeconds millis) [_, _, _] 11 13
    rfl ascii colon (by dsimp only; omega) rfl rfl
  obtain ⟨minute, minuteColon⟩ := column_at (columns totalSeconds millis) [_, _, _, _] 14 16
    rfl ascii colon (by dsimp only; omega) rfl rfl
  obtain ⟨second, secondPoint⟩ := column_at (columns totalSeconds millis) [_, _, _, _, _] 17 19
    rfl ascii point (by dsimp only; omega) rfl rfl
  obtain ⟨_, millisZone⟩ := column_at (columns totalSeconds millis) [_, _, _, _, _, _] 20 23
    rfl ascii zone (by dsimp only; omega) rfl rfl
  have length : (columnBytes (columns totalSeconds millis)).length = 24 :=
    column_bytes_length ascii
  obtain ⟨whole, front⟩ := column_parts (columns totalSeconds millis) [_, _, _, _, _, _] 20
    rfl ascii zone rfl
  have fraction :
      (((columnBytes (columns totalSeconds millis)).drop 20).takeWhile isDigit).length = 3 := by
    rw [whole, List.append_assoc, ← front, List.drop_left]
    exact digits_end 3 millis _ (by decide)
  have offset : validOffset (columnBytes (columns totalSeconds millis)) 23 = true := by
    rw [validOffset, millisZone, length]
    rfl
  dsimp only at year month day hour minute second
  have dateTime : validDateTime (columnBytes (columns totalSeconds millis)) = true := by
    have length_eq := days_in_month_eq (epoch.after (totalSeconds / 86400)).year.toNat
      month_pos month_le
    rw [Int.toNat_of_nonneg (by omega)] at length_eq
    rw [validDateTime, year, month, day, hour, minute, second]
    simp only [length_eq, Bool.and_eq_true, decide_eq_true_iff]
    omega
  delta validTimestamp
  rw [utf8_of_list]
  rw [show encode ((columns totalSeconds millis).flatMap Column.text) =
    columnBytes (columns totalSeconds millis) from rfl]
  simp only [length, yearDash, monthDash, dayTime, hourColon, minuteColon, secondPoint, dateTime,
    fraction]
  rw [if_neg (by decide), if_neg (by decide), if_pos trivial]
  exact offset

end Reading

section Results

/-- The instants before the year 10000: the formatted text is accepted by the validator, its
date is the one that the calendar reaches day by day, and later instants have greater texts. -/
theorem format_rfc3339_millis_spec (totalSeconds millis : Nat)
    (before : totalSeconds < secondsBefore10000) (small : millis < 1000) :
    HistoryStore.validTimestamp (String.ofList (formatRfc3339Millis totalSeconds millis)) = true ∧
      civilFromDays (toSigned totalSeconds / secsPerDay) =
        ((epoch.after (totalSeconds / 86400)).year, (epoch.after (totalSeconds / 86400)).month,
          (epoch.after (totalSeconds / 86400)).day) ∧
      ∀ laterSeconds laterMillis, laterSeconds < secondsBefore10000 → laterMillis < 1000 →
        (totalSeconds < laterSeconds ∨ totalSeconds = laterSeconds ∧ millis < laterMillis) →
        formatRfc3339Millis totalSeconds millis < formatRfc3339Millis laterSeconds laterMillis := by
  refine ⟨?_, ?_, ?_⟩
  · rw [format_columns before small]
    exact columns_accepted before small
  · have signed : toSigned totalSeconds = totalSeconds := by
      rw [toSigned, if_pos]
      rw [secondsBefore10000] at before
      omega
    rw [signed]
    exact civil_from_days_after (totalSeconds / 86400)
  · intro laterSeconds laterMillis laterBefore laterSmall later
    rw [format_columns before small, format_columns laterBefore laterSmall]
    exact (columns_less laterBefore laterSmall later).text_lt

/-- The leap day of 2000 before the next midnight. -/
theorem format_leap_day :
    HistoryStore.validTimestamp (String.ofList (formatRfc3339Millis 951868799 999)) = true ∧
      formatRfc3339Millis 951868799 999 = "2000-02-29T23:59:59.999Z".toList ∧
      formatRfc3339Millis 951868799 999 < formatRfc3339Millis 951868800 0 := by
  obtain ⟨accepted, _, greater⟩ :=
    format_rfc3339_millis_spec 951868799 999 (by decide) (by decide)
  exact ⟨accepted, by decide +kernel, greater 951868800 0 (by decide) (by decide) (by decide)⟩

end Results

end MinicoreAgent.Time
