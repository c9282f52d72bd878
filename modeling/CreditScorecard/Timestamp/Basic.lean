/-! # Instants in universal time

A date of the Gregorian calendar and a time of day, both valid by construction. An instant read
with an offset is moved to universal time by at most one day in either direction.
-/

namespace CreditScorecard

def isLeapYear (year : Int) : Bool :=
  year % 4 == 0 && (year % 100 != 0 || year % 400 == 0)

def daysInMonth (year : Int) (month : Nat) : Nat :=
  if month = 2 then (if isLeapYear year then 29 else 28)
  else if month = 4 ∨ month = 6 ∨ month = 9 ∨ month = 11 then 30
  else 31

/-- A date from the years -262143 to 262142. -/
structure Date where
  year : Int
  month : Nat
  day : Nat
  year_range : -262143 ≤ year ∧ year ≤ 262142
  month_range : 1 ≤ month ∧ month ≤ 12
  day_range : 1 ≤ day ∧ day ≤ daysInMonth year month
deriving DecidableEq

namespace Date

def ofFields? (year : Int) (month day : Nat) : Option Date :=
  if hy : -262143 ≤ year ∧ year ≤ 262142 then
    if hm : 1 ≤ month ∧ month ≤ 12 then
      if hd : 1 ≤ day ∧ day ≤ daysInMonth year month then some ⟨year, month, day, hy, hm, hd⟩
      else none
    else none
  else none

/-- The next day, unless the calendar ends. -/
def next? (d : Date) : Option Date :=
  if d.day < daysInMonth d.year d.month then ofFields? d.year d.month (d.day + 1)
  else if d.month < 12 then ofFields? d.year (d.month + 1) 1
  else ofFields? (d.year + 1) 1 1

/-- The day before, unless the calendar begins. -/
def previous? (d : Date) : Option Date :=
  if 1 < d.day then ofFields? d.year d.month (d.day - 1)
  else if 1 < d.month then
    ofFields? d.year (d.month - 1) (daysInMonth d.year (d.month - 1))
  else ofFields? (d.year - 1) 12 31

/-- The date so many days after 1 March of the year 0. Years run from March here and eras are 400
years long, so a leap day is the last day of its year. -/
def ofDays? (days : Int) : Option Date :=
  let era := days / 146097
  let dayOfEra := (days % 146097).toNat
  let yearOfEra := (dayOfEra - dayOfEra / 1460 + dayOfEra / 36524 - dayOfEra / 146096) / 365
  let dayOfYear := dayOfEra - (365 * yearOfEra + yearOfEra / 4 - yearOfEra / 100)
  let month := (5 * dayOfYear + 2) / 153
  let day := dayOfYear - (153 * month + 2) / 5 + 1
  let year := era * 400 + yearOfEra
  if month < 10 then ofFields? year (month + 3) day
  else ofFields? (year + 1) (month - 9) day

end Date

/-- A time of day. A leap second is the sixtieth second of its minute, and its fraction counts on
from a full second. -/
structure TimeOfDay where
  hour : Nat
  minute : Nat
  second : Nat
  nano : Nat
  hour_lt : hour < 24
  minute_lt : minute < 60
  second_lt : second < 60
  nano_lt : nano < 1000000000 ∨ (second = 59 ∧ nano < 2000000000)
deriving DecidableEq

/-- An instant in universal time. -/
structure Timestamp where
  date : Date
  time : TimeOfDay
deriving DecidableEq

namespace Timestamp

/-- The instant of a local date and time whose clock runs ahead of universal time by less than a
day. The seconds stay, since offsets are whole minutes. -/
def ofLocal? (date : Date) (time : TimeOfDay) (offsetMinutes : Int) : Option Timestamp :=
  let minutes := 60 * time.hour + time.minute - offsetMinutes
  let ofDay := (minutes % 1440).toNat
  let time' : TimeOfDay :=
    { time with
      hour := ofDay / 60
      minute := ofDay % 60
      hour_lt := by omega
      minute_lt := by omega }
  let date? :=
    if minutes < 0 then date.previous?
    else if minutes < 1440 then some date
    else date.next?
  date?.map (⟨·, time'⟩)

/-- The instant so many seconds after the start of 1970. -/
def ofUnix? (seconds : Int) (nano : Nat) : Option Timestamp :=
  let ofDay := (seconds % 86400).toNat
  if h : nano < 1000000000 then
    let time : TimeOfDay :=
      { hour := ofDay / 3600
        minute := ofDay / 60 % 60
        second := ofDay % 60
        nano := nano
        hour_lt := by omega
        minute_lt := by omega
        second_lt := by omega
        nano_lt := .inl h }
    (Date.ofDays? (seconds / 86400 + 719468)).map (⟨·, time⟩)
  else none

theorem ofLocal?_zero (date : Date) (time : TimeOfDay) :
    ofLocal? date time 0 = some ⟨date, time⟩ := by
  have hh := time.hour_lt
  have hm := time.minute_lt
  have hd : ((60 * (time.hour : Int) + time.minute - 0) % 1440).toNat =
      60 * time.hour + time.minute := by omega
  have h₁ : (60 * time.hour + time.minute) / 60 = time.hour := by omega
  have h₂ : (60 * time.hour + time.minute) % 60 = time.minute := by omega
  have h₃ : ¬(60 * (time.hour : Int) + time.minute - 0 < 0) := by omega
  have h₄ : 60 * (time.hour : Int) + time.minute - 0 < 1440 := by omega
  simp only [ofLocal?, hd, h₁, h₂, if_neg h₃, if_pos h₄, Option.map_some]

end Timestamp

end CreditScorecard
