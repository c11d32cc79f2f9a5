namespace PkgRecipe

structure Date where
  year : Nat
  month : Nat
  day : Nat
deriving DecidableEq, Repr

structure DateTime where
  date : Date
  hour : Nat
  minute : Nat
  second : Nat
  microsecond : Nat
  /-- How many minutes the clock is ahead of universal time, if that is known. -/
  offset : Option Int
deriving DecidableEq, Repr

inductive CalendarFault where
  | yearRange (year : Nat)
  | monthRange
  | dayRange
  | hourRange
  | minuteRange
  | secondRange
  /-- A clock is a day or more ahead of universal time, or behind it. -/
  | offsetRange (minutes : Int)
deriving DecidableEq, Repr

namespace Date

def isLeapYear (year : Nat) : Bool :=
  year % 4 = 0 && (year % 100 ≠ 0 || year % 400 = 0)

def daysInMonth (year month : Nat) : Nat :=
  if month = 2 then (if isLeapYear year then 29 else 28)
  else if month = 4 ∨ month = 6 ∨ month = 9 ∨ month = 11 then 30
  else 31

def fault? (d : Date) : Option CalendarFault :=
  if d.year = 0 then some (.yearRange d.year)
  else if d.month = 0 ∨ 12 < d.month then some .monthRange
  else if d.day = 0 ∨ daysInMonth d.year d.month < d.day then some .dayRange
  else none

/-- How many days there are from the beginning of the first year to the end of a date. -/
def number (d : Date) : Nat :=
  let years := d.year - 1
  let months := (List.range d.month).drop 1
  365 * years + years / 4 - years / 100 + years / 400 +
    (months.map (daysInMonth d.year)).foldl (· + ·) 0 + d.day

end Date

namespace DateTime

def minutesPerDay : Nat :=
  1440

/-- The first fault of a date and a time: that of the offset, then those from the year to the
second. -/
def fault? (t : DateTime) : Option CalendarFault :=
  let offset := t.offset.getD 0
  if minutesPerDay ≤ offset.natAbs then some (.offsetRange offset)
  else
    match t.date.fault? with
    | some fault => some fault
    | none =>
        if 24 ≤ t.hour then some .hourRange
        else if 60 ≤ t.minute then some .minuteRange
        else if 60 ≤ t.second then some .secondRange
        else none

/-- The microseconds up to a time, in universal time if the clock's offset from it is `offset`. -/
def instant (t : DateTime) (offset : Int) : Int :=
  let minutes : Int := t.date.number * minutesPerDay + t.hour * 60 + t.minute - offset
  (minutes * 60 + t.second) * 1000000 + t.microsecond

end DateTime

end PkgRecipe
