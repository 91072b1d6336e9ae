/-
# Decimals

Numbers as people write them: an optional sign, digits with at most one point among them, and
an optional exponent. Infinity and the number that is none may be named instead, in letters of
either case. Such a text stands for the double nearest to it.

* `Decimal.ofChars?` : digits and exponent of an unsigned decimal;
* `Binary64.ofText?` : the double that a text stands for.
-/
import Stepwise.Number.Binary64

namespace Stepwise

/-- The value of a digit. -/
def digitValue (c : Char) : Nat := c.toNat - '0'.toNat

/-- The number written by a list of digits. -/
def natOfDigits (ds : List Char) : Nat := ds.foldl (fun n d => n * 10 + digitValue d) 0

/-- A plus or a minus before something, and what follows; the sign is true for a minus. -/
def takeSign (cs : List Char) : Bool × List Char :=
  match cs with
  | '+' :: rest => (false, rest)
  | '-' :: rest => (true, rest)
  | rest => (false, rest)

/-- At least one digit, with an optional sign before them. -/
def signedDigits? (cs : List Char) : Option (Bool × List Char) :=
  let (negative, ds) := takeSign cs
  if ds.isEmpty || !ds.all Char.isDigit then none else some (negative, ds)

/-- The number digits · 10^exponent. -/
structure Decimal where
  digits : Nat
  exponent : Int
deriving DecidableEq

namespace Decimal

/-- The exponent after the letter that announces it; none before the end of the text. -/
def exponent? : List Char → Option Int
  | [] => some 0
  | c :: cs =>
    if c = 'e' || c = 'E' then
      (signedDigits? cs).map fun (negative, ds) =>
        if negative then -(natOfDigits ds : Int) else natOfDigits ds
    else none

/-- Reads an unsigned decimal. There is a digit before the point or after it. -/
def ofChars? (cs : List Char) : Option Decimal :=
  let whole := cs.takeWhile Char.isDigit
  let (fraction, rest) := match cs.dropWhile Char.isDigit with
    | '.' :: cs => (cs.takeWhile Char.isDigit, cs.dropWhile Char.isDigit)
    | cs => ([], cs)
  if whole.isEmpty && fraction.isEmpty then none
  else (exponent? rest).map fun e => ⟨natOfDigits (whole ++ fraction), e - fraction.length⟩

end Decimal

namespace Binary64

/-- Reads an unsigned number, which is a name or a decimal. -/
def ofUnsigned? (cs : List Char) : Option Binary64 :=
  let name := String.ofList (cs.map Char.toLower)
  if name = "inf" || name = "infinity" then some (infinity false)
  else if name = "nan" then some nan
  else (Decimal.ofChars? cs).map fun d => ofDecimal false d.digits d.exponent

/-- Reads a number. -/
def ofText? (s : String) : Option Binary64 :=
  let (negative, cs) := takeSign s.toList
  (ofUnsigned? cs).map fun x => if negative then x.neg else x

end Binary64

end Stepwise
