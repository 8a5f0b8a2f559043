/-!
# The Gregorian calendar

The proleptic Gregorian calendar as its rules say it: the lengths of the months, the leap
years, and the day after each date. The dates from a first one on are reached day by day, and
each is later than all before it.
-/
namespace MinicoreAgent.Calendar

structure Date where
  year : Int
  month : Nat
  day : Nat
  deriving DecidableEq, Repr

/-- Every fourth year, but of the whole centuries only every fourth one. -/
def leap (year : Int) : Bool :=
  year % 400 = 0 || (year % 4 = 0 && year % 100 ≠ 0)

def monthLength (year : Int) (month : Nat) : Nat :=
  if month = 2 then
    if leap year then 29 else 28
  else if month ∈ [4, 6, 9, 11] then 30
  else 31

/-- A date of the calendar. -/
structure Date.Valid (date : Date) : Prop where
  month_pos : 1 ≤ date.month
  month_le : date.month ≤ 12
  day_pos : 1 ≤ date.day
  day_le : date.day ≤ monthLength date.year date.month

/-- The next day: in the same month, in the next month, or in the next year. -/
def Date.tomorrow (date : Date) : Date :=
  if date.day < monthLength date.year date.month then { date with day := date.day + 1 }
  else if date.month < 12 then { date with month := date.month + 1, day := 1 }
  else ⟨date.year + 1, 1, 1⟩

/-- The date some days after another one. -/
def Date.after (date : Date) : Nat → Date
  | 0 => date
  | days + 1 => (date.after days).tomorrow

/-- An earlier date: year before month before day. -/
def Date.Before (first second : Date) : Prop :=
  first.year < second.year ∨ first.year = second.year ∧
    (first.month < second.month ∨ first.month = second.month ∧ first.day < second.day)

theorem month_length_pos (year : Int) (month : Nat) : 1 ≤ monthLength year month := by
  rw [monthLength]
  split
  · split
    · decide
    · decide
  · split
    · decide
    · decide

theorem Date.Before.trans {first second third : Date} (earlier : first.Before second)
    (later : second.Before third) : first.Before third := by
  rw [Date.Before] at earlier later ⊢
  omega

theorem Date.before_tomorrow (date : Date) : date.Before date.tomorrow := by
  rw [Date.tomorrow]
  split
  · exact .inr ⟨rfl, .inr ⟨rfl, Nat.lt_succ_self _⟩⟩
  · split
    · exact .inr ⟨rfl, .inl (Nat.lt_succ_self _)⟩
    · exact .inl (Int.lt_succ _)

theorem Date.Valid.tomorrow {date : Date} (valid : date.Valid) : date.tomorrow.Valid := by
  obtain ⟨month_pos, month_le, day_pos, day_le⟩ := valid
  rw [Date.tomorrow]
  split
  · rename_i inside
    exact ⟨month_pos, month_le, Nat.le_add_left 1 _, inside⟩
  · split
    · rename_i inside
      exact ⟨Nat.le_add_left 1 _, inside, Nat.le_refl 1, month_length_pos _ _⟩
    · have first : 1 ≤ 12 := by decide
      exact ⟨Nat.le_refl 1, first, Nat.le_refl 1, month_length_pos _ _⟩

theorem Date.Valid.after {date : Date} (valid : date.Valid) (days : Nat) :
    (date.after days).Valid := by
  induction days with
  | zero => exact valid
  | succ days inductionHypothesis => exact inductionHypothesis.tomorrow

/-- Later days have later dates. -/
theorem Date.after_before (date : Date) {first second : Nat} (later : first < second) :
    (date.after first).Before (date.after second) := by
  induction later with
  | refl => exact Date.before_tomorrow _
  | step _ inductionHypothesis => exact inductionHypothesis.trans (Date.before_tomorrow _)

end MinicoreAgent.Calendar
