import FileDepot.Text.Digits

/-!
# Dates and times

Contents:

* `Date`, `DateTime` — a day of the calendar, and a time of day on it, with or without an offset;
* `Date.fault?`, `DateTime.fault?` — what keeps numbers from being a date or a time;
* `Date.dayNumber`, `Date.ofDayNumber` — days counted through;
* `DateTime.instant?` — the moment that a time with an offset stands for;
* `Date.render`, `DateTime.render` and their readers `ofText?`.
-/

namespace FileDepot

/-- A day of the calendar. -/
structure Date where
  year : Nat
  month : Nat
  day : Nat
  deriving Repr, DecidableEq, Inhabited

/-- A time of day; `offset` is its distance from universal time in seconds, if it has one. -/
structure DateTime where
  date : Date
  hour : Nat := 0
  minute : Nat := 0
  second : Nat := 0
  microsecond : Nat := 0
  offset : Option Int := none
  deriving Repr, DecidableEq, Inhabited

namespace Date

/-! ## The calendar -/

/-- The year has a 29th of February. -/
def isLeap (year : Nat) : Bool :=
  year % 4 == 0 && (year % 100 != 0 || year % 400 == 0)

/-- The number of days of a month. -/
def daysInMonth (year month : Nat) : Nat :=
  if month = 2 then (if isLeap year then 29 else 28)
  else if month = 4 || month = 6 || month = 9 || month = 11 then 30
  else 31

/-- What keeps the three numbers from being a date. -/
def fault? (d : Date) : Option String :=
  if d.year < 1 || 9999 < d.year then some s!"year {d.year} is out of range"
  else if d.month < 1 || 12 < d.month then some "month must be in 1..12"
  else if d.day < 1 || daysInMonth d.year d.month < d.day then some "day is out of range for month"
  else none

/-- The days of the years before `year`. -/
def daysBeforeYear (year : Nat) : Nat :=
  let y := year - 1
  y * 365 + y / 4 - y / 100 + y / 400

/-- The days of the months before `month`. -/
def daysBeforeMonth (year : Nat) : Nat → Nat
  | 0 => 0
  | 1 => 0
  | month + 1 => daysBeforeMonth year month + daysInMonth year month

/-- The days from the first of January of the first year to a date, both counted. -/
def dayNumber (d : Date) : Nat :=
  daysBeforeYear d.year + daysBeforeMonth d.year d.month + d.day

/-- The month and day reached `days` days, counted from one, after the start of `month`. -/
def monthAndDay (year : Nat) : Nat → Nat → Nat → Nat × Nat
  | 0, month, days => (month, days)
  | fuel + 1, month, days =>
    let length := daysInMonth year month
    if days ≤ length then (month, days) else monthAndDay year fuel (month + 1) (days - length)

/-- The year of a day number, found from a guess that is at most a few years too early. -/
def yearOfDay (n : Nat) : Nat → Nat → Nat
  | 0, year => year
  | fuel + 1, year => if daysBeforeYear (year + 1) < n then yearOfDay n fuel (year + 1) else year

/-- The date with a given day number. -/
def ofDayNumber (n : Nat) : Date :=
  let year := yearOfDay n 40 (n / 366 + 1)
  let (month, day) := monthAndDay year 11 1 (n - daysBeforeYear year)
  ⟨year, month, day⟩

/-! ## Text -/

/-- The date as year, month and day. -/
def render (d : Date) : String :=
  s!"{Text.decimalPadded 4 d.year}-{Text.decimalPadded 2 d.month}-{Text.decimalPadded 2 d.day}"

/-- A number of exactly as many digits as `cs` has characters. -/
def number? (cs : List Char) : Option Nat :=
  if cs.isEmpty || !cs.all Char.isDigit then none
  else some (cs.foldl (fun n c => 10 * n + (c.toNat - 48)) 0)

/-- Reads a date of ten characters. -/
def ofChars? : List Char → Option Date
  | [y, e, a, r, '-', m, o, '-', d, t] => do
    let date : Date := ⟨← number? [y, e, a, r], ← number? [m, o], ← number? [d, t]⟩
    if date.fault?.isNone then some date else none
  | _ => none

/-- Reads a date. -/
def ofText? (s : String) : Option Date :=
  ofChars? s.toList

end Date

namespace DateTime

/-- Midnight of a day. -/
def ofDate (d : Date) : DateTime :=
  { date := d }

/-- A span of seconds as it is written down: whole days, and the seconds above them. -/
def writtenSpan (seconds : Int) : String :=
  let days := seconds.fdiv 86400
  let rest := seconds - days * 86400
  let parts :=
    (if days = 0 then [] else [s!"days={days}"]) ++ (if rest = 0 then [] else [s!"seconds={rest}"])
  let span := if parts.isEmpty then "0" else ", ".intercalate parts
  s!"datetime.timedelta({span})"

/-- What keeps a number of seconds from being an offset: it must be less than a day. -/
def offsetFault? (seconds : Int) : Option String :=
  if seconds.natAbs < 86400 then none
  else
    some ("offset must be a timedelta strictly between -timedelta(hours=24) and timedelta(hours=24), " ++
      s!"not {writtenSpan seconds}.")

/-- What keeps the numbers from being a date with a time of day. -/
def fault? (t : DateTime) : Option String :=
  t.date.fault? <|>
    if 23 < t.hour then some "hour must be in 0..23"
    else if 59 < t.minute then some "minute must be in 0..59"
    else if 59 < t.second then some "second must be in 0..59"
    else none

/-- The microseconds from the start of the calendar to the time shown. -/
def shown (t : DateTime) : Int :=
  (((((t.date.dayNumber * 24 + t.hour) * 60 + t.minute) * 60 + t.second) * 1000000 +
    t.microsecond : Nat) : Int)

/-- The moment of a time with an offset, in microseconds. -/
def instant? (t : DateTime) : Option Int :=
  t.offset.map fun o => t.shown - o * 1000000

/-- The same or both without an offset and the same time shown. -/
def same (a b : DateTime) : Bool :=
  match a.instant?, b.instant? with
  | some x, some y => x == y
  | none, none => a.shown == b.shown
  | _, _ => false

/-- A whole number of seconds later. -/
def addSeconds (t : DateTime) (n : Nat) : DateTime :=
  let total := (t.hour * 60 + t.minute) * 60 + t.second + n
  let rest := total % 86400
  { t with
    date := Date.ofDayNumber (t.date.dayNumber + total / 86400)
    hour := rest / 3600
    minute := rest / 60 % 60
    second := rest % 60 }

/-! ## Text -/

/-- An offset in hours and minutes, and in seconds where it has any. -/
def renderOffset (o : Int) : String :=
  let n := o.natAbs
  let base := s!"{Text.decimalPadded 2 (n / 3600)}:{Text.decimalPadded 2 (n / 60 % 60)}"
  let seconds := if n % 60 = 0 then "" else s!":{Text.decimalPadded 2 (n % 60)}"
  (if o < 0 then "-" else "+") ++ base ++ seconds

/-- The time of day, with microseconds if there are any. -/
def renderClock (t : DateTime) : String :=
  s!"{Text.decimalPadded 2 t.hour}:{Text.decimalPadded 2 t.minute}:{Text.decimalPadded 2 t.second}" ++
    if t.microsecond = 0 then "" else s!".{Text.decimalPadded 6 t.microsecond}"

/-- Date and time of day with `middle` between them, and the offset behind them. -/
def renderWith (middle : String) (t : DateTime) : String :=
  t.date.render ++ middle ++ t.renderClock ++ (t.offset.map renderOffset).getD ""

/-- Date, time of day and offset. -/
def render (t : DateTime) : String :=
  t.renderWith "T"

/-- Reads an offset. -/
def offsetOf? : List Char → Option (Option Int)
  | [] => some none
  | ['Z'] => some (some 0)
  | sign :: h :: o :: ':' :: m :: i :: rest => do
    let hours ← Date.number? [h, o]
    let minutes ← Date.number? [m, i]
    let seconds ←
      match rest with
      | [] => some 0
      | [':', s, e] => Date.number? [s, e]
      | _ => none
    let n : Int := (hours * 60 + minutes) * 60 + seconds
    if sign = '+' then some (some n) else if sign = '-' then some (some (-n)) else none
  | _ => none

/-- The first six digits of a fraction, as millionths. -/
def microsecondsOf (digits : List Char) : Nat :=
  let six := (digits ++ List.replicate 6 '0').take 6
  six.foldl (fun n c => 10 * n + (c.toNat - 48)) 0

/-- Reads date, time of day and offset. -/
def ofText? (s : String) : Option DateTime := do
  let cs := s.toList
  let date ← Date.ofChars? (cs.take 10)
  match cs.drop 10 with
  | [] => some (ofDate date)
  | _ :: h :: o :: ':' :: m :: i :: ':' :: e :: c :: rest =>
    let (fraction, rest) :=
      match rest with
      | '.' :: rest => (rest.takeWhile Char.isDigit, rest.dropWhile Char.isDigit)
      | rest => ([], rest)
    let t : DateTime :=
      { date
        hour := ← Date.number? [h, o]
        minute := ← Date.number? [m, i]
        second := ← Date.number? [e, c]
        microsecond := microsecondsOf fraction
        offset := ← offsetOf? rest }
    if t.fault?.isNone then some t else none
  | _ => none

end DateTime

end FileDepot
