/-
# Numbers in documents

A number is exact if it is written as an integer that fits 64 bits, signed or unsigned, and
a double otherwise. A double is read in two steps: as many digits as fit 64 bits form the
significand, and that is scaled by a power of ten, with one rounding for each step.

* `NumberLiteral.ofChars?` : the grammar of a number;
* `Number.ofLiteral?` : its value, if that is finite;
* `Number.text` : how it is written.
-/
import Stepwise.Number.Decimal
import Stepwise.Number.Shortest

namespace Stepwise

/-- A number as it is written. -/
structure NumberLiteral where
  negative : Bool
  whole : List Char
  fraction : Option (List Char)
  /-- Sign and digits of the exponent; the sign is true for a minus. -/
  exponent : Option (Bool × List Char)
deriving DecidableEq

namespace NumberLiteral

/-- What may follow the whole digits: a fraction, an exponent, both or neither. -/
def tail? (cs : List Char) : Option (Option (List Char) × Option (Bool × List Char)) :=
  let (fraction, rest) := match cs with
    | '.' :: cs => (some (cs.takeWhile Char.isDigit), cs.dropWhile Char.isDigit)
    | cs => (none, cs)
  if fraction == some [] then none
  else match rest with
    | [] => some (fraction, none)
    | c :: cs => if c = 'e' || c = 'E' then (signedDigits? cs).map (fraction, some ·) else none

/-- Reads a number: a minus if it is negative, digits without a leading zero, and the tail. -/
def ofChars? (cs : List Char) : Option NumberLiteral :=
  let (negative, cs) := match cs with
    | '-' :: cs => (true, cs)
    | cs => (false, cs)
  let whole := cs.takeWhile Char.isDigit
  match whole with
  | [] => none
  | '0' :: _ :: _ => none
  | whole => (tail? (cs.dropWhile Char.isDigit)).map fun (fraction, exponent) =>
      ⟨negative, whole, fraction, exponent⟩

end NumberLiteral

/-- Appends digits to a significand while it fits 64 bits; also gives the digits left over. -/
def takeDigits (significand : Nat) : List Char → Nat × List Char
  | [] => (significand, [])
  | d :: ds =>
    let longer := significand * 10 + digitValue d
    if longer < UInt64.size then takeDigits longer ds else (significand, d :: ds)

namespace Binary64

/-- The double nearest to a power of ten. -/
def powerOfTen (n : Nat) : Binary64 := ofDecimal false 1 n

/-- A double scaled by a power of ten, in steps of at most 308 places; none if it overflows. -/
def scaleByTen? (x : Binary64) (places : Int) : Option Binary64 :=
  if places.natAbs ≤ 308 then
    if 0 ≤ places then
      let y := x.mul (powerOfTen places.natAbs)
      if y.isFinite then some y else none
    else some (x.div (powerOfTen places.natAbs))
  else if x.isZero then some x
  else if 0 ≤ places then none
  else scaleByTen? (x.div (powerOfTen 308)) (places + 308)
termination_by places.natAbs

end Binary64

/-- A number of a document. -/
inductive Number where
  | int (n : Int)
  | float (x : Binary64)
deriving DecidableEq, Inhabited

namespace Number

/-- A number without point and exponent whose digits fit: an integer if its sign allows it.
Minus zero and what lies below the signed range become doubles. -/
def ofSignificand (negative : Bool) (significand : Nat) : Number :=
  if !negative then .int significand
  else if 0 < significand && significand ≤ 0x8000000000000000 then .int (-(significand : Int))
  else .float (Binary64.ofNat significand).neg

/-- The double significand · 10^places of either sign. -/
def ofScaled? (negative : Bool) (significand : Nat) (places : Int) : Option Number :=
  ((Binary64.ofNat significand).scaleByTen? places).map fun x =>
    .float (if negative then x.neg else x)

/-- The largest exponent that is taken at its value; beyond it a number is zero or too large. -/
def exponentLimit : Nat := 0x7FFFFFFF

/-- The value of a written number; none if it exceeds the doubles. -/
def ofLiteral? (l : NumberLiteral) : Option Number :=
  let (significand, left) := takeDigits 0 l.whole
  if left.isEmpty && l.fraction.isNone && l.exponent.isNone then
    some (ofSignificand l.negative significand)
  else
    let (significand, dropped) := match l.fraction with
      | none => (significand, (left.length : Int))
      | some ds =>
        let (longer, unread) := takeDigits significand ds
        (longer, (left.length : Int) - ((ds.length : Int) - unread.length))
    match l.exponent with
    | none => ofScaled? l.negative significand dropped
    | some (down, ds) =>
      let size := natOfDigits ds
      if exponentLimit < size then
        if significand = 0 || down then some (.float ⟨l.negative, 0⟩) else none
      else
        ofScaled? l.negative significand (if down then dropped - size else dropped + size)

/-- Reads a number. -/
def ofChars? (cs : List Char) : Option Number := (NumberLiteral.ofChars? cs).bind ofLiteral?

/-- An integer is written with its digits, a double as its shortest decimal. -/
def text : Number → String
  | .int n => toString n
  | .float x => x.text

/-- The double nearest to the number. -/
def toBinary64 : Number → Binary64
  | .int n => ⟨n < 0, (Binary64.ofNat n.natAbs).magnitude⟩
  | .float x => x

end Number

end Stepwise
