import Lexline.Text.Numeral

/-!
# Dates and times

* `Date`, `Time`, `DateTime` — a day, a time of day, and both with an optional offset from
  universal time, in minutes.
* `Date.isValid` — the days of the calendar.
* `iso` — the standard form of each; a separator stands between day and time.
* `describe` — the constructor form of each, which leaves out what is zero at the end.
-/

namespace Lexline

open Text (padded numeralString)

/-- A day of the calendar. -/
structure Date where
  year : Nat
  month : Nat
  day : Nat
  deriving DecidableEq, Repr

/-- A time of day, to the microsecond. -/
structure Time where
  hour : Nat
  minute : Nat
  second : Nat
  micro : Nat
  deriving DecidableEq, Repr

/-- A day and a time, with the minutes by which the local time is ahead of universal time. -/
structure DateTime where
  date : Date
  time : Time
  offset : Option Int
  deriving DecidableEq, Repr

/-- Whether a year has a leap day. -/
def isLeapYear (year : Nat) : Bool := year % 4 == 0 && (year % 100 != 0 || year % 400 == 0)

/-- The number of days of a month. -/
def daysInMonth (year month : Nat) : Nat :=
  match month with
  | 2 => if isLeapYear year then 29 else 28
  | 4 | 6 | 9 | 11 => 30
  | _ => 31

/-- The calendar starts with the year one. -/
def Date.isValid (d : Date) : Bool :=
  1 ≤ d.year && 1 ≤ d.month && d.month ≤ 12 && 1 ≤ d.day && d.day ≤ daysInMonth d.year d.month

/-- The standard form of a day. -/
def Date.iso (d : Date) : String :=
  String.ofList (padded 4 d.year ++ '-' :: padded 2 d.month ++ '-' :: padded 2 d.day)

/-- The standard form of a time; microseconds stand only if there are any. -/
def Time.iso (t : Time) : String :=
  String.ofList (padded 2 t.hour ++ ':' :: padded 2 t.minute ++ ':' :: padded 2 t.second ++
    (if t.micro = 0 then [] else '.' :: padded 6 t.micro))

/-- The standard form of an offset. -/
def offsetIso (minutes : Int) : String :=
  String.ofList ((if minutes < 0 then '-' else '+') :: padded 2 (minutes.natAbs / 60) ++
    ':' :: padded 2 (minutes.natAbs % 60))

/-- The standard form of a day and a time. -/
def DateTime.iso (separator : String) (x : DateTime) : String :=
  x.date.iso ++ separator ++ x.time.iso ++ (x.offset.map offsetIso).getD ""

/-- The numbers of a day, in order. -/
def Date.fields (d : Date) : List String :=
  [numeralString d.year, numeralString d.month, numeralString d.day]

/-- The numbers of a time, without the seconds and microseconds that are zero at the end. -/
def Time.fields (t : Time) : List String :=
  [numeralString t.hour, numeralString t.minute] ++
    (if t.second = 0 ∧ t.micro = 0 then [] else [numeralString t.second]) ++
    (if t.micro = 0 then [] else [numeralString t.micro])

/-- The constructor form of an offset. -/
def offsetDescribe (minutes : Int) : String :=
  if minutes = 0 then "datetime.timezone.utc"
  else
    let days := if minutes < 0 then "days=-1, " else ""
    let seconds := (60 * minutes) % 86400
    "datetime.timezone(datetime.timedelta(" ++ days ++ "seconds=" ++ numeralString seconds ++ "))"

/-- How many constructor forms stand inside each other in the offset of a time. -/
def DateTime.offsetDepth (x : DateTime) : Nat :=
  match x.offset with
  | none => 0
  | some minutes => if minutes = 0 then 1 else 2

/-- The constructor form of a day. -/
def Date.describe (d : Date) : String := "datetime.date(" ++ ", ".intercalate d.fields ++ ")"

/-- The constructor form of a time. -/
def Time.describe (t : Time) : String := "datetime.time(" ++ ", ".intercalate t.fields ++ ")"

/-- The constructor form of a day and a time. -/
def DateTime.describe (x : DateTime) : String :=
  let zone := (x.offset.map (fun minutes => ["tzinfo=" ++ offsetDescribe minutes])).getD []
  "datetime.datetime(" ++ ", ".intercalate (x.date.fields ++ x.time.fields ++ zone) ++ ")"

end Lexline
