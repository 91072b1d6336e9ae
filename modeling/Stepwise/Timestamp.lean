/-
# Points in time

A point in time is a date of the Gregorian calendar and a time of day, both in UTC. The
second 60 is a leap second. It is read from RFC 3339 text in a relaxed form: blanks may
stand between the parts, numbers need no leading zeros, years outside 0 to 9999 have a
sign, and any offset below a day is taken off.

* `Timestamp.ofText?` : reading;
* `Timestamp.text` : writing, with as many fraction digits as are needed in steps of three.
-/
import Stepwise.Text.Blank
import Stepwise.Number.Decimal

namespace Stepwise

namespace Calendar

/-- Is there a 29th of February? -/
def isLeap (year : Int) : Bool :=
  year % 4 = 0 && (year % 100 != 0 || year % 400 = 0)

/-- The number of days of a month. -/
def daysIn (year : Int) (month : Nat) : Nat :=
  if month = 2 then (if isLeap year then 29 else 28)
  else if month = 4 || month = 6 || month = 9 || month = 11 then 30
  else 31

/-- The day after a date. -/
def nextDay (year : Int) (month day : Nat) : Int × Nat × Nat :=
  if day < daysIn year month then (year, month, day + 1)
  else if month < 12 then (year, month + 1, 1)
  else (year + 1, 1, 1)

/-- The day before a date. -/
def previousDay (year : Int) (month day : Nat) : Int × Nat × Nat :=
  if 1 < day then (year, month, day - 1)
  else if 1 < month then (year, month - 1, daysIn year (month - 1))
  else (year - 1, 12, 31)

end Calendar

/-- The years that can be represented. -/
def Timestamp.firstYear : Int := -262143

/-- The last of the years that can be represented. -/
def Timestamp.lastYear : Int := 262142

/-- The fields are a date and a time of day. -/
def Timestamp.isValid (year : Int) (month day hour minute second nanos : Nat) : Bool :=
  firstYear ≤ year && year ≤ lastYear && 1 ≤ month && month ≤ 12 && 1 ≤ day &&
    day ≤ Calendar.daysIn year month && hour < 24 && minute < 60 && second ≤ 60 &&
    nanos < 1000000000

/-- A point in time. -/
structure Timestamp where
  year : Int
  month : Nat
  day : Nat
  hour : Nat
  minute : Nat
  second : Nat
  nanos : Nat
  valid : Timestamp.isValid year month day hour minute second nanos = true
deriving DecidableEq

namespace Timestamp

/-- The point in time with given fields, if they are valid. -/
def ofFields? (year : Int) (month day hour minute second nanos : Nat) : Option Timestamp :=
  if h : isValid year month day hour minute second nanos = true then
    some ⟨year, month, day, hour, minute, second, nanos, h⟩
  else none

/-- The first midnight of the year 1970. -/
def epoch : Timestamp := ⟨1970, 1, 1, 0, 0, 0, 0, by decide⟩

instance : Inhabited Timestamp := ⟨epoch⟩

/-! ## Writing -/

/-- A number with at least `width` digits. -/
def padded (width n : Nat) : String :=
  let ds := (toString n).toList
  String.ofList (List.replicate (width - ds.length) '0' ++ ds)

/-- Four digits for the years 0 to 9999, a sign and at least four digits for all others. -/
def yearText (year : Int) : String :=
  if 0 ≤ year && year ≤ 9999 then padded 4 year.toNat
  else (if year < 0 then "-" else "+") ++ padded 4 year.natAbs

/-- No digits, or three, six or nine of them after a point. -/
def fractionText (nanos : Nat) : String :=
  if nanos = 0 then ""
  else if nanos % 1000000 = 0 then "." ++ padded 3 (nanos / 1000000)
  else if nanos % 1000 = 0 then "." ++ padded 6 (nanos / 1000)
  else "." ++ padded 9 nanos

/-- The point in time as text. -/
def text (t : Timestamp) : String :=
  yearText t.year ++ "-" ++ padded 2 t.month ++ "-" ++ padded 2 t.day ++ "T" ++
    padded 2 t.hour ++ ":" ++ padded 2 t.minute ++ ":" ++ padded 2 t.second ++
    fractionText t.nanos ++ "Z"

/-! ## Reading -/

/-- A number of one up to `most` digits, and what follows it. -/
def number? (most : Nat) (cs : List Char) : Option (Nat × List Char) :=
  let ds := (cs.take most).takeWhile Char.isDigit
  if ds.isEmpty then none else some (natOfDigits ds, cs.drop ds.length)

/-- A year: four digits at most, or a sign and any number of digits. -/
def year? (cs : List Char) : Option (Int × List Char) :=
  match Text.trimStart cs with
  | '-' :: cs => (number? cs.length cs).map fun (n, rest) => (-(n : Int), rest)
  | '+' :: cs => (number? cs.length cs).map fun (n, rest) => ((n : Int), rest)
  | cs => (number? 4 cs).map fun (n, rest) => ((n : Int), rest)

/-- A number of one or two digits between two bounds, after blanks. -/
def field? (low high : Nat) (cs : List Char) : Option (Nat × List Char) :=
  (number? 2 (Text.trimStart cs)).bind fun (n, rest) =>
    if low ≤ n && n ≤ high then some (n, rest) else none

/-- A given character, after blanks. -/
def mark? (c : Char) (cs : List Char) : Option (List Char) :=
  match Text.trimStart cs with
  | d :: rest => if d = c then some rest else none
  | [] => none

/-- The letter T or a space between date and time. -/
def divider? : List Char → Option (List Char)
  | c :: rest => if c = 'T' || c = 't' || c = ' ' then some rest else none
  | [] => none

/-- A fraction of a second in nanoseconds; digits after the ninth do not count. -/
def fraction? : List Char → Option (Nat × List Char)
  | '.' :: cs =>
    (number? 9 cs).map fun (n, rest) =>
      (n * Nat.pow 10 (9 - (cs.length - rest.length)), rest.dropWhile Char.isDigit)
  | cs => some (0, cs)

/-- Two digits of an offset, the first at most `high`. -/
def offsetDigits? (high : Char) : List Char → Option (Nat × List Char)
  | a :: b :: rest =>
    if a.isDigit && b.isDigit && a ≤ high then some (natOfDigits [a, b], rest) else none
  | _ => none

/-- The offset from UTC in minutes: Z, UTC, or hours and minutes after a sign, where any number
of colons and blanks may stand between the two. -/
def offset? (cs : List Char) : Option (Int × List Char) :=
  if (cs.take 3).map Char.toUpper = ['U', 'T', 'C'] then some (0, cs.drop 3)
  else match cs with
    | [] => none
    | c :: rest =>
      if c = 'Z' || c = 'z' then some (0, rest)
      else if c = '+' || c = '-' || c = '−' then
        (offsetDigits? '9' rest).bind fun (hours, rest) =>
          (offsetDigits? '5' (rest.dropWhile fun c => c = ':' || Text.isBlank c)).map
            fun (minutes, rest) =>
              let size : Int := hours * 60 + minutes
              (if c = '+' then size else -size, rest)
      else none

/-- The point in time that a clock shows which is some minutes ahead of UTC. -/
def ahead? (year : Int) (month day hour minute second nanos : Nat) (offset : Int) :
    Option Timestamp :=
  if offset.natAbs < 1440 && isValid year month day hour minute second nanos then
    let total : Int := hour * 60 + minute - offset
    let (year, month, day) :=
      if total < 0 then Calendar.previousDay year month day
      else if 1440 ≤ total then Calendar.nextDay year month day
      else (year, month, day)
    let ofDay := (total % 1440).toNat
    ofFields? year month day (ofDay / 60) (ofDay % 60) second nanos
  else none

/-- Reads a point in time. -/
def ofChars? (cs : List Char) : Option Timestamp := do
  let (year, cs) ← year? cs
  let cs ← mark? '-' cs
  let (month, cs) ← field? 1 12 cs
  let cs ← mark? '-' cs
  let (day, cs) ← field? 1 31 cs
  let cs ← divider? cs
  let (hour, cs) ← field? 0 23 cs
  let cs ← mark? ':' cs
  let (minute, cs) ← field? 0 59 cs
  let cs ← mark? ':' cs
  let (second, cs) ← field? 0 60 cs
  let (nanos, cs) ← fraction? cs
  let (offset, cs) ← offset? (Text.trimStart cs)
  if (Text.trimStart cs).isEmpty then
    ahead? year month day hour minute second nanos offset
  else none

/-- Reads a point in time. -/
def ofText? (s : String) : Option Timestamp := ofChars? s.toList

end Timestamp

end Stepwise
