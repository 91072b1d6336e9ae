/-
# Words of TOML

The values that are written without quotes: booleans, integers of 64 bits, doubles, dates and
times. Digits may be set off by single underscores.

* `Toml` : the values;
* `Toml.ofWord?` : the value of a word.
-/
import Stepwise.Number.Decimal
import Stepwise.Text.Reader
import Stepwise.Timestamp

namespace Stepwise

/-- A value of TOML. -/
inductive Toml where
  | str (s : String)
  | int (n : Int)
  | float (x : Binary64)
  | bool (b : Bool)
  /-- A date, a time, or both, as it is written. -/
  | time (text : String)
  | arr (items : List Toml)
  | table (members : List (String × Toml))

namespace Toml

open Text (Reader)
open Text.Reader

/-- The digits of a number without underscores, each of which stands between two digits. -/
def digits? (isDigit : Char → Bool) (cs : List Char) : Option (List Char) :=
  match cs with
  | c :: '_' :: d :: rest =>
    if isDigit c then (digits? isDigit (d :: rest)).map (c :: ·) else none
  | c :: d :: rest => if isDigit c then (digits? isDigit (d :: rest)).map (c :: ·) else none
  | [c] => if isDigit c then some [c] else none
  | [] => none

/-- An integer of 64 bits. -/
def bounded? (n : Int) : Option Int := if -0x8000000000000000 ≤ n && n < 0x8000000000000000 then some n else none

/-- The value of a digit in any base up to sixteen. -/
def baseDigit (c : Char) : Nat :=
  if c.isDigit then digitValue c else c.toLower.toNat - 'a'.toNat + 10

/-- The number written in a base. -/
def inBase? (base : Nat) (cs : List Char) : Option Int :=
  let isDigit (c : Char) : Bool :=
    (c.isDigit || ('a' ≤ c.toLower && c.toLower ≤ 'f')) && baseDigit c < base
  (digits? isDigit cs).bind fun ds => bounded? (ds.foldl (fun n d => n * base + baseDigit d) 0 : Nat)

/-- The digits of a decimal integer: only the zero begins with a zero. -/
def wholeDigits? (cs : List Char) : Option (List Char) :=
  match digits? Char.isDigit cs with
  | some ('0' :: _ :: _) => none
  | ds => ds

/-- Reads an integer: decimal with an optional sign, or in another base without one. -/
def integer? (cs : List Char) : Option Int :=
  match cs with
  | '0' :: 'x' :: ds => inBase? 16 ds
  | '0' :: 'o' :: ds => inBase? 8 ds
  | '0' :: 'b' :: ds => inBase? 2 ds
  | cs =>
    let (negative, ds) := takeSign cs
    (wholeDigits? ds).bind fun ds =>
      let n : Int := natOfDigits ds
      bounded? (if negative then -n else n)

/-- The exponent after a decimal, with the letter that announces it. -/
def exponent? : List Char → Option (List Char)
  | [] => some []
  | e :: cs =>
    if e = 'e' || e = 'E' then
      match cs with
      | '+' :: ds => (digits? Char.isDigit ds).map ('e' :: ·)
      | '-' :: ds => (digits? Char.isDigit ds).map fun ds => 'e' :: '-' :: ds
      | ds => (digits? Char.isDigit ds).map ('e' :: ·)
    else none

/-- The characters before an exponent, and the exponent. -/
def splitExponent (cs : List Char) : List Char × List Char :=
  cs.span fun c => !(c = 'e' || c = 'E')

/-- An unsigned decimal without underscores. It has a point between digits, or an exponent. -/
def decimal? (cs : List Char) : Option (List Char) :=
  let (mantissa, power) := splitExponent cs
  let (whole, fraction) := mantissa.span (· ≠ '.')
  match fraction with
  | [] =>
    if power.isEmpty then none
    else (wholeDigits? whole).bind fun w => (exponent? power).map (w ++ ·)
  | _ :: fraction =>
    (wholeDigits? whole).bind fun w =>
      (digits? Char.isDigit fraction).bind fun f =>
        (exponent? power).map fun p => w ++ '.' :: f ++ p

/-- Reads a double. One that is too large is refused. -/
def float? (cs : List Char) : Option Binary64 :=
  let (negative, body) := takeSign cs
  let sign (x : Binary64) : Binary64 := if negative then x.neg else x
  if body = "inf".toList then some (sign (.infinity false))
  else if body = "nan".toList then some (sign .nan)
  else
    ((decimal? body).bind Binary64.ofUnsigned?).bind fun x =>
      if !negative && x = .infinity false then none else some (sign x)

/-! ## Dates and times -/

/-- A number of so many digits. -/
def number (count : Nat) : Reader Nat := do return natOfDigits (← exactly count Char.isDigit)

/-- A date. -/
def date : Reader Unit := do
  let year ← number 4
  literal "-"
  let month ← number 2
  literal "-"
  let day ← number 2
  require (1 ≤ month && month ≤ 12 && 1 ≤ day && day ≤ Calendar.daysIn year month)

/-- A time of day; the second 60 is a leap second. -/
def timeOfDay : Reader Unit := do
  let hour ← number 2
  literal ":"
  let minute ← number 2
  literal ":"
  let second ← number 2
  require (hour < 24 && minute < 60 && second ≤ 60)
  if ← literal? "." then
    let ds ← takeWhile Char.isDigit
    require !ds.isEmpty

/-- The offset from UTC after a date and a time; it may be left out. -/
def offset : Reader Unit := do
  match ← peek? with
  | none => pure ()
  | some c =>
    let _ ← next
    if c = 'Z' || c = 'z' then pure ()
    else
      require (c = '+' || c = '-')
      let hour ← number 2
      literal ":"
      let minute ← number 2
      require (hour < 24 && minute < 60)

/-- A date with a time after a letter or a blank. -/
def dateTime : Reader Unit := do
  date
  if !(← atEnd) then
    let _ ← one fun c => c = 'T' || c = 't' || c = ' '
    timeOfDay
    offset

/-- The word is a date without a time. -/
def isDate (cs : List Char) : Bool := (whole? date cs).isSome

/-- The word is a date, a time, or both. -/
def isTime (cs : List Char) : Bool := (whole? dateTime cs).isSome || (whole? timeOfDay cs).isSome

/-- The value of a word. -/
def ofWord? (cs : List Char) : Option Toml :=
  if cs = "true".toList then some (.bool true)
  else if cs = "false".toList then some (.bool false)
  else if isTime cs then some (.time (String.ofList cs))
  else
    match integer? cs with
    | some n => some (.int n)
    | none => (float? cs).map .float

end Toml

end Stepwise
