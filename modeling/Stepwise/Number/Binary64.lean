/-
# Binary64 numbers

A double is its sign and its 63 remaining bits, read as the natural number that orders the
magnitudes: zero, the subnormal numbers, the normal ones, infinity, and beyond infinity the
numbers that are none. Arithmetic is exact rational arithmetic followed by one rounding.

* `Binary64.ofRatio` : the double nearest to a quotient, a tie going to the even one;
* `Binary64.scale` : the pair (m, q) of a finite double with magnitude m · 2^q;
* `Binary64.mul`, `Binary64.div` : product and quotient, rounded once;
* `Binary64.isPositive`, `Binary64.isAtMostZero` : comparison with zero, both false of a NaN.
-/

namespace Stepwise

/-- A double: its sign, and its exponent and fraction bits as one number. -/
structure Binary64 where
  negative : Bool
  magnitude : Nat
deriving DecidableEq, Inhabited, Repr

/-- The quotient of two natural numbers rounded to the nearest one, a half to the even one. -/
def roundQuotient (num den : Nat) : Nat :=
  let whole := num / den
  let twice := 2 * (num % den)
  if twice < den then whole
  else if den < twice then whole + 1
  else if whole % 2 = 0 then whole else whole + 1

namespace Binary64

/-- The magnitude bits of infinity; the magnitudes above it are no numbers. -/
def infinityBits : Nat := 0x7FF <<< 52

def zero : Binary64 := ⟨false, 0⟩

/-- Infinity of either sign. -/
def infinity (negative : Bool) : Binary64 := ⟨negative, infinityBits⟩

/-- The result of an operation without a numeric answer. -/
def nan : Binary64 := ⟨false, infinityBits + (1 <<< 51)⟩

def isFinite (x : Binary64) : Bool := x.magnitude < infinityBits

def isNaN (x : Binary64) : Bool := infinityBits < x.magnitude

def isZero (x : Binary64) : Bool := x.magnitude == 0

def neg (x : Binary64) : Binary64 := ⟨!x.negative, x.magnitude⟩

/-- The number is above zero. -/
def isPositive (x : Binary64) : Bool := !x.isNaN && !x.negative && !x.isZero

/-- The number is zero or below. -/
def isAtMostZero (x : Binary64) : Bool := !x.isNaN && (x.negative || x.isZero)

/-- The exponent of the power of two at or below a positive quotient. -/
def floorLog2 (num den : Nat) : Int :=
  let e : Int := (Nat.log2 num : Int) - (Nat.log2 den : Int)
  if num <<< (-e).toNat < den <<< e.toNat then e - 1 else e

/-- The magnitude bits of the double nearest to num / den. The unit in the last place of a
quotient in [2^e, 2^(e+1)) is 2^(e-52), and never less than 2^(-1074); a quotient that rounds
up to the next power of two carries into the exponent bits. -/
def nearestBits (num den : Nat) : Nat :=
  if num = 0 then 0
  else
    let unit : Int := max (floorLog2 num den - 52) (-1074)
    let m := roundQuotient (num <<< (-unit).toNat) (den <<< unit.toNat)
    min (((unit + 1074).toNat <<< 52) + m) infinityBits

/-- The double nearest to a quotient with a positive denominator. -/
def ofRatio (negative : Bool) (num den : Nat) : Binary64 := ⟨negative, nearestBits num den⟩

/-- The double nearest to a natural number. -/
def ofNat (n : Nat) : Binary64 := ofRatio false n 1

/-- The pair (m, q) with magnitude m · 2^q of a finite double. -/
def scale (x : Binary64) : Nat × Int :=
  let exponent : Nat := x.magnitude >>> 52
  let fraction : Nat := x.magnitude % (1 <<< 52)
  if exponent = 0 then (fraction, -1074)
  else (fraction + (1 <<< 52), (exponent : Int) - 1075)

/-- The magnitude of a finite double as a quotient. -/
def ratio (x : Binary64) : Nat × Nat :=
  let (m, q) := x.scale
  (m <<< q.toNat, 1 <<< (-q).toNat)

/-- The product of two finite doubles, rounded once. -/
def mul (x y : Binary64) : Binary64 :=
  let (a, b) := x.ratio
  let (c, d) := y.ratio
  ofRatio (x.negative != y.negative) (a * c) (b * d)

/-- The quotient of two finite doubles of which the second is not zero, rounded once. -/
def div (x y : Binary64) : Binary64 :=
  let (a, b) := x.ratio
  let (c, d) := y.ratio
  ofRatio (x.negative != y.negative) (a * d) (b * c)

/-- The double nearest to digits · 10^exponent. Magnitudes far outside the range of doubles
are settled by the exponent, so that no huge power is formed: digits is at least one and at
most 10^(log2 digits + 1). -/
def ofDecimal (negative : Bool) (digits : Nat) (exponent : Int) : Binary64 :=
  if digits = 0 then ⟨negative, 0⟩
  else if exponent > 400 then infinity negative
  else if exponent + (Nat.log2 digits : Int) < -400 then ⟨negative, 0⟩
  else
    ofRatio negative (digits * Nat.pow 10 exponent.toNat) (Nat.pow 10 (-exponent).toNat)

end Binary64

end Stepwise
