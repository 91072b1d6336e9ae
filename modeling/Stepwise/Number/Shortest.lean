/-
# The shortest decimal of a double

The decimal that stands for a double is the shortest one that is read back as that double,
and of several equally short ones the nearest. It is found by trying one digit, two digits,
and so on: on the grid of decimals with a given number of digits only the two neighbours of
the double can be the nearest ones.

* `Binary64.shortest` : digits and exponent of that decimal;
* `Binary64.text` : how a finite double is written.
-/
import Stepwise.Number.Binary64

namespace Stepwise.Binary64

/-- Four times the ends of the interval of reals that are read as the double m · 2^q, counted in
units of 2^q: half a unit on either side, and a quarter below a power of two, where the doubles
lie closer. -/
def quarterEnds (m : Nat) (atPower : Bool) : Nat × Nat :=
  (4 * m - (if atPower then 1 else 2), 4 * m + 2)

/-- Does digits · 10^k lie in the interval of a double? The ends belong to it if m is even. -/
def readsBack (m : Nat) (q : Int) (atPower : Bool) (digits : Nat) (k : Int) : Bool :=
  let (low, high) := quarterEnds m atPower
  let value := (4 * digits * Nat.pow 10 k.toNat) <<< (-q).toNat
  let unit := (Nat.pow 10 (-k).toNat) <<< q.toNat
  if m % 2 = 0 then low * unit ≤ value && value ≤ high * unit
  else low * unit < value && value < high * unit

/-- The exponent of the power of ten at or below a positive quotient. -/
def floorLog10 (num den : Nat) : Int :=
  let guess : Int := (floorLog2 num den * 30103) / 100000
  let atLeast (e : Int) : Bool := den * Nat.pow 10 e.toNat ≤ num * Nat.pow 10 (-e).toNat
  if atLeast (guess + 1) then guess + 1
  else if atLeast guess then guess
  else guess - 1

/-- The decimal with a given number of digits that reads back, if one of the two neighbours of
the double on that grid does; of two the nearer, and of two equally near the even one. -/
def onGrid? (m : Nat) (q : Int) (atPower : Bool) (leading : Int) (count : Nat) :
    Option (Nat × Int) :=
  let k := leading - (count : Int) + 1
  let num := (m <<< q.toNat) * Nat.pow 10 (-k).toNat
  let den := (1 <<< (-q).toNat) * Nat.pow 10 k.toNat
  let below := num / den
  let nearest := roundQuotient num den
  if readsBack m q atPower nearest k then some (nearest, k)
  else if readsBack m q atPower below k then some (below, k)
  else if readsBack m q atPower (below + 1) k then some (below + 1, k)
  else none

/-- The first decimal that reads back, with a growing number of digits. -/
def shortestFrom (m : Nat) (q : Int) (atPower : Bool) (leading : Int) (count : Nat) :
    Nat → Nat × Int
  | 0 => (m * Nat.pow 10 q.toNat, 0)
  | tries + 1 =>
    match onGrid? m q atPower leading count with
    | some decimal => decimal
    | none => shortestFrom m q atPower leading (count + 1) tries

/-- A decimal without the zeros at the end of its digits. -/
def dropZeros (digits : Nat) (k : Int) : Nat → Nat × Int
  | 0 => (digits, k)
  | tries + 1 =>
    if digits % 10 = 0 && digits != 0 then dropZeros (digits / 10) (k + 1) tries
    else (digits, k)

/-- Digits and exponent of the shortest decimal that is read as a finite double other than
zero. Seventeen digits always suffice. -/
def shortest (x : Binary64) : Nat × Int :=
  let (m, q) := x.scale
  let atPower := m == (1 <<< 52) && q > -1074
  let (num, den) := x.ratio
  let (digits, k) := shortestFrom m q atPower (floorLog10 num den) 1 17
  dropZeros digits k 17

/-- The places around the decimal point for which a double is written without an exponent. -/
structure PlainRange where
  /-- The point may stand at most this far to the right of the first digit. -/
  right : Int
  /-- The point stands less than this far to the left of the first digit. -/
  left : Int

/-- A point is written within 16 places after the first digit, or 5 before it. -/
def plainRange : PlainRange := ⟨16, -5⟩

/-- The text of a decimal: with a point and at least one digit on either side of it, or with
one digit before the point and an exponent. -/
def decimalText (digits : Nat) (k : Int) : String :=
  let ds := (toString digits).toList
  let point : Int := (ds.length : Int) + k
  if 0 ≤ k && point ≤ plainRange.right then
    String.ofList (ds ++ List.replicate k.toNat '0') ++ ".0"
  else if 0 < point && point ≤ plainRange.right then
    String.ofList (ds.take point.toNat) ++ "." ++ String.ofList (ds.drop point.toNat)
  else if plainRange.left < point && point ≤ 0 then
    "0." ++ String.ofList (List.replicate (-point).toNat '0' ++ ds)
  else
    let exponent := "e" ++ toString (point - 1)
    match ds with
    | [d] => String.ofList [d] ++ exponent
    | ds => String.ofList (ds.take 1) ++ "." ++ String.ofList (ds.drop 1) ++ exponent

/-- The text of a finite double; a zero keeps its sign. -/
def text (x : Binary64) : String :=
  let sign := if x.negative then "-" else ""
  if x.isZero then sign ++ "0.0"
  else
    let (digits, k) := x.shortest
    sign ++ decimalText digits k

end Stepwise.Binary64
