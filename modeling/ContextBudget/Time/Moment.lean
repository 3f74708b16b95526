import ContextBudget.Text.Blank
import ContextBudget.Time.Span

/-!
# Moments

A moment in universal time, to the nanosecond. During a leap second the nanoseconds run from one
to two thousand million, so a moment is later than another exactly when its seconds, and then its
nanoseconds, are larger.

Moments are written as RFC 3339 texts with no fraction or one of three, six or nine places. They
are read in a relaxed form of it: blanks around the parts, a blank in place of the `T`, `UTC` in
place of the `Z`, signed years.
-/

namespace ContextBudget

/-- A moment: seconds since the start of 1970 and nanoseconds within the second. -/
structure Moment where
  seconds : Int
  nanos : Nat
  deriving DecidableEq, Repr, Inhabited

/-- A day of the calendar. -/
structure CalendarDay where
  year : Int
  month : Nat
  day : Nat
  deriving DecidableEq, Repr

namespace CalendarDay

/-- Whether a year has a 29th of February. -/
def isLeapYear (year : Int) : Bool := year % 4 = 0 && (year % 100 ≠ 0 || year % 400 = 0)

/-- The days of a month. -/
def monthLength (year : Int) (month : Nat) : Nat :=
  if month = 2 then (if isLeapYear year then 29 else 28)
  else if month = 4 || month = 6 || month = 9 || month = 11 then 30 else 31

/-- Whether the day is in the calendar, which ends with the year 262142. -/
def isValid (d : CalendarDay) : Bool :=
  -262143 ≤ d.year && d.year ≤ 262142 && 1 ≤ d.month && d.month ≤ 12 && 1 ≤ d.day
    && d.day ≤ monthLength d.year d.month

/-- Days since the start of 1970. Years are counted from March, so that a leap day ends one. -/
def toDays (d : CalendarDay) : Int :=
  let y := if d.month ≤ 2 then d.year - 1 else d.year
  let era := y / 400
  let yearOfEra := y - era * 400
  let shifted : Int := if d.month ≤ 2 then d.month + 9 else (d.month : Int) - 3
  let dayOfYear := (153 * shifted + 2) / 5 + d.day - 1
  era * 146097 + (yearOfEra * 365 + yearOfEra / 4 - yearOfEra / 100 + dayOfYear) - 719468

/-- The day that is so many days after the start of 1970. -/
def ofDays (days : Int) : CalendarDay :=
  let z := days + 719468
  let era := z / 146097
  let dayOfEra := z - era * 146097
  let yearOfEra := (dayOfEra - dayOfEra / 1460 + dayOfEra / 36524 - dayOfEra / 146096) / 365
  let dayOfYear := dayOfEra - (365 * yearOfEra + yearOfEra / 4 - yearOfEra / 100)
  let shifted := (5 * dayOfYear + 2) / 153
  let day := (dayOfYear - (153 * shifted + 2) / 5 + 1).toNat
  let month := (if shifted < 10 then shifted + 3 else shifted - 9).toNat
  ⟨yearOfEra + era * 400 + (if month ≤ 2 then 1 else 0), month, day⟩

end CalendarDay

namespace Moment

/-- The start of 1970. -/
def epoch : Moment := ⟨0, 0⟩

/-- Whether `a` is not after `b`. -/
def atMost (a b : Moment) : Bool :=
  a.seconds < b.seconds || (a.seconds == b.seconds && a.nanos ≤ b.nanos)

/-- The first second of the calendar. -/
def firstSecond : Int := CalendarDay.toDays ⟨-262143, 1, 1⟩ * 86400

/-- The last second of the calendar. -/
def lastSecond : Int := CalendarDay.toDays ⟨262142, 12, 31⟩ * 86400 + 86399

/-- The moment a span later, unless that leaves the calendar. A leap second is left by any
whole second, and by a fraction that passes its end. -/
def after? (m : Moment) (s : Span) : Option Moment :=
  let whole : Int := s.wholeSeconds
  let part := s.subNanos
  if 1000000000 ≤ m.nanos ∧ whole = 0 ∧ m.nanos + part < 2000000000 then
    some ⟨m.seconds, m.nanos + part⟩
  else
    let nanos := (if 1000000000 ≤ m.nanos then m.nanos - 1000000000 else m.nanos) + part
    let seconds := m.seconds + whole + (nanos / 1000000000 : Nat)
    if seconds ≤ lastSecond then some ⟨seconds, nanos % 1000000000⟩ else none

/-- The moment so many nanoseconds after a moment outside leap seconds. -/
def plusNanos (m : Moment) (n : Int) : Moment :=
  let total := m.seconds * 1000000000 + m.nanos + n
  ⟨total / 1000000000, (total % 1000000000).toNat⟩

/-! ## Writing -/

/-- A year in four digits, with a sign and at least four digits outside them. -/
def yearText (year : Int) : String :=
  if 0 ≤ year ∧ year ≤ 9999 then Span.padded 4 year.toNat
  else (if year < 0 then "-" else "+") ++ Span.padded 4 year.natAbs

/-- A fraction of a second in the fewest groups of three places. -/
def fractionText (nanos : Nat) : String :=
  if nanos = 0 then ""
  else if nanos % 1000000 = 0 then "." ++ Span.padded 3 (nanos / 1000000)
  else if nanos % 1000 = 0 then "." ++ Span.padded 6 (nanos / 1000)
  else "." ++ Span.padded 9 nanos

/-- The moment as an RFC 3339 text. -/
def text (m : Moment) : String :=
  let day := CalendarDay.ofDays (m.seconds / 86400)
  let time := (m.seconds % 86400).toNat
  let leap := if 1000000000 ≤ m.nanos then 1 else 0
  yearText day.year ++ "-" ++ Span.padded 2 day.month ++ "-" ++ Span.padded 2 day.day ++ "T"
    ++ Span.padded 2 (time / 3600) ++ ":" ++ Span.padded 2 (time / 60 % 60) ++ ":"
    ++ Span.padded 2 (time % 60 + leap) ++ fractionText (m.nanos - leap * 1000000000) ++ "Z"

/-! ## Reading -/

/-- The number in the leading digits, at most `most` of them, and what follows. -/
def readDigits (most : Nat) (cs : List Char) : Option (Nat × List Char) :=
  let digits := (cs.take most).takeWhile Char.isDigit
  if digits.isEmpty then none
  else some (digits.foldl (fun n c => n * 10 + (c.toNat - '0'.toNat)) 0, cs.drop digits.length)

/-- Blanks, then the number in at most two digits. -/
def readPair (cs : List Char) : Option (Nat × List Char) := readDigits 2 (Text.trimLeft cs)

/-- Blanks, then a year: four digits at most, or any number of them after a sign. -/
def readYear (cs : List Char) : Option (Int × List Char) :=
  match Text.trimLeft cs with
  | '-' :: rest => (readDigits rest.length rest).map fun (n, more) => (-(n : Int), more)
  | '+' :: rest => (readDigits rest.length rest).map fun (n, more) => ((n : Int), more)
  | rest => (readDigits 4 rest).map fun (n, more) => ((n : Int), more)

/-- Blanks, then one given character. -/
def readMark (mark : Char) (cs : List Char) : Option (List Char) :=
  match Text.trimLeft cs with
  | c :: rest => if c = mark then some rest else none
  | [] => none

/-- An optional fraction of a second; places beyond the ninth are ignored. -/
def readFraction : List Char → Option (Nat × List Char)
  | '.' :: rest =>
    let digits := rest.takeWhile Char.isDigit
    if digits.isEmpty then none
    else
      let kept := digits.take 9
      let n := kept.foldl (fun n c => n * 10 + (c.toNat - '0'.toNat)) 0
      some (n * Nat.pow 10 (9 - kept.length), rest.drop digits.length)
  | rest => some (0, rest)

/-- Two digits exactly. -/
def readTwo : List Char → Option (Nat × List Char)
  | a :: b :: rest =>
    if a.isDigit && b.isDigit then
      some ((a.toNat - '0'.toNat) * 10 + (b.toNat - '0'.toNat), rest)
    else none
  | _ => none

/-- The seconds that local time is ahead of universal time. -/
def readOffset (cs : List Char) : Option (Int × List Char) :=
  match cs with
  | [] => none
  | c :: rest =>
    if c = 'Z' ∨ c = 'z' then some (0, rest)
    else if (String.ofList ((cs.take 3).map Char.toLower)) = "utc" then some (0, cs.drop 3)
    else if c = '+' ∨ c = '-' ∨ c = '\u2212' then
      match readTwo rest with
      | none => none
      | some (hours, rest) =>
        match readTwo (rest.dropWhile fun c => c == ':' || Text.isBlank c) with
        | none => none
        | some (minutes, rest) =>
          let ahead : Int := hours * 3600 + minutes * 60
          if minutes < 60 ∧ ahead < 86400 then some (if c = '+' then ahead else -ahead, rest)
          else none
    else none

/-- The moment that a text denotes. Both the local day and the moment have to be in the
calendar. -/
def read? (s : String) : Option Moment := do
  let (year, cs) ← readYear s.toList
  let cs ← readMark '-' cs
  let (month, cs) ← readPair cs
  let cs ← readMark '-' cs
  let (day, cs) ← readPair cs
  let cs ← match cs with
    | c :: rest => if c = 'T' ∨ c = 't' ∨ c = ' ' then some rest else none
    | [] => none
  let (hour, cs) ← readPair cs
  let cs ← readMark ':' cs
  let (minute, cs) ← readPair cs
  let cs ← readMark ':' cs
  let (second, cs) ← readPair cs
  let (fraction, cs) ← readFraction cs
  let (ahead, cs) ← readOffset (Text.trimLeft cs)
  let date : CalendarDay := ⟨year, month, day⟩
  if !(Text.trimLeft cs).isEmpty || !date.isValid || 24 ≤ hour || 60 ≤ minute || 61 ≤ second then
    none
  else
    let whole := date.toDays * 86400 + hour * 3600 + minute * 60 + Nat.min second 59 - ahead
    if firstSecond ≤ whole ∧ whole ≤ lastSecond then
      some ⟨whole, fraction + (if second = 60 then 1000000000 else 0)⟩
    else none

end Moment
end ContextBudget
