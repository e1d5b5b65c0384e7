import OboardAgent.Lib.Rfc3339

/-!
# Go's calendar, in a location

An instant is a number of nanoseconds since 1970, as in `Rfc3339`. A `*time.Location` is what its
`lookup` answers: the offset from UTC at an instant, and the stretch of time it holds for. The
zone database is the operating system's, so a location is a parameter everywhere; nothing is
assumed about it.

`date` is `time.Date`. It takes fields out of their ranges (month 13, day 0), and looks the offset
up twice where the first guess falls outside the stretch it was found in.
-/

namespace GoTime

/-- An offset from UTC, in seconds, and the stretch of time it holds for. -/
structure ZoneSpan where
  offset : Int
  start : Int
  finish : Int
deriving DecidableEq, Repr

/-- A `*time.Location`. -/
structure Location where
  lookup : Int → ZoneSpan

/-- `time.FixedZone`. -/
def fixedZone (offset : Int) : Location :=
  ⟨fun _ => ⟨offset, -9223372036854775808, 9223372036854775807⟩⟩

/-- The zero `time.Time`. -/
def zero : Int := -62135596800 * 1000000000

/-- The day number, counted from 1970, of a day given by fields that may be out of range. -/
def dayOf (year month day : Int) : Int :=
  let y := year + (month - 1) / 12
  let m := (month - 1) % 12 + 1
  -- Years before 0 are counted from whole cycles of 400 years.
  let k := if y < 0 then (-y) / 400 + 1 else 0
  (Rfc3339.dayNumber (y + 400 * k).toNat m.toNat 1 : Int) - 146097 * k - Rfc3339.epochDay + (day - 1)

/-- The offset `time.Date` subtracts from a local reading. -/
def Location.offsetFor (loc : Location) (reading : Int) : Int :=
  let z := loc.lookup reading
  if z.offset = 0 then 0
  else
    let guess := reading - z.offset
    if guess < z.start ∨ z.finish ≤ guess then (loc.lookup guess).offset else z.offset

/-- `time.Date`. -/
def date (year month day hour minute second nanosecond : Int) (loc : Location) : Int :=
  let reading := dayOf year month day * 86400 + hour * 3600 + minute * 60 + second
  (reading - loc.offsetFor reading) * 1000000000 + nanosecond

/-- An instant as a location's clocks and calendars show it. -/
structure Local where
  year : Int
  month : Int
  day : Int
  hour : Int
  minute : Int
  second : Int
  nanosecond : Int
deriving DecidableEq, Repr

/-- `t.In(loc)`, read by `Date` and `Clock`. -/
def inLocation (t : Int) (loc : Location) : Local :=
  let unix := t / 1000000000
  let reading := unix + (loc.lookup unix).offset
  let c := Rfc3339.civilInt (reading / 86400 + Rfc3339.epochDay)
  let s := reading % 86400
  { year := c.1, month := c.2.1, day := c.2.2, hour := s / 3600, minute := s / 60 % 60
    second := s % 60, nanosecond := t % 1000000000 }

/-- `t.AddDate(0, months, 0)`. -/
def addMonths (t : Int) (months : Int) (loc : Location) : Int :=
  let l := inLocation t loc
  date l.year (l.month + months) l.day l.hour l.minute l.second l.nanosecond loc

/-- `t.Format("2006-01-02")`. -/
def formatDate (t : Int) (loc : Location) : String :=
  let l := inLocation t loc
  String.ofList (Rfc3339.yearChars l.year ++ '-' :: Rfc3339.digits 2 l.month.toNat ++ '-' ::
    Rfc3339.digits 2 l.day.toNat)

-- A field out of range: day 0 of March, in a leap year.
example : formatDate (date 2028 3 0 12 0 0 0 (fixedZone 28800)) (fixedZone 28800) = "2028-02-29" := by
  decide

end GoTime
