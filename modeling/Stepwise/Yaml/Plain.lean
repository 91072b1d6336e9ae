/-
# What plain scalars mean

A plain scalar stands for nothing, a truth value or a number if it is written as one, and for
its text otherwise. A tag can demand one of these. Integers are written in base ten, or with a
mark in base sixteen, eight or two; several digits after a zero are no number.

* `Plain.isNull`, `Plain.bool?`, `Plain.integer?`, `Plain.float?` : the readings of a text;
* `Plain.value?`, `Plain.tagged?` : the value of a scalar.
-/
import Stepwise.Json.Basic
import Stepwise.Number.Decimal
import Stepwise.Number.Hex
import Stepwise.Yaml.Scalar

namespace Stepwise.Yaml.Plain

/-- The text stands for nothing. -/
def isNull (s : String) : Bool := s = "null" || s = "Null" || s = "NULL" || s = "~"

/-- The truth value of a text. -/
def bool? (s : String) : Option Bool :=
  if s = "true" || s = "True" || s = "TRUE" then some true
  else if s = "false" || s = "False" || s = "FALSE" then some false
  else none

/-- The number that digits of a base up to sixteen write. -/
def natIn? (base : Nat) (cs : List Char) : Option Nat :=
  if cs.isEmpty then none
  else
    cs.foldlM (fun n c => (Hex.value? c).bind fun d =>
      if d < base then some (n * base + d) else none) 0

/-- The number after a mark of its base, or in base ten. -/
def magnitude? (cs : List Char) : Option Nat :=
  match cs with
  | '0' :: 'x' :: ds => natIn? 16 ds
  | '0' :: 'o' :: ds => natIn? 8 ds
  | '0' :: 'b' :: ds => natIn? 2 ds
  | '0' :: _ :: _ => none
  | ds => natIn? 10 ds

/-- The integer that a text writes. -/
def integer? (s : String) : Option Int :=
  match s.toList with
  | '-' :: cs => (magnitude? cs).map fun n => -(n : Int)
  | '+' :: cs => (magnitude? cs).map Int.ofNat
  | cs => (magnitude? cs).map Int.ofNat

/-- The integers up to which a text counts as an integer at all. -/
def isCounted (n : Int) : Bool := 
  -0x80000000000000000000000000000000 ≤ n && n < 0x100000000000000000000000000000000

/-- The integers that a value can hold. -/
def isHeld (n : Int) : Bool := -0x8000000000000000 ≤ n && n < 0x10000000000000000

/-- Several digits of which the first is a zero. -/
def isZeroLed (s : String) : Bool :=
  match (takeSign s.toList).2 with
  | '0' :: d :: rest => (d :: rest).all Char.isDigit
  | _ => false

/-- The double that a text writes; infinity and what is no number have names with a point. -/
def float? (s : String) : Option Binary64 :=
  let (negative, cs) := takeSign s.toList
  let name := String.ofList cs
  if name = ".inf" || name = ".Inf" || name = ".INF" then some (.infinity negative)
  else if s = ".nan" || s = ".NaN" || s = ".NAN" then some .nan
  else
    match Binary64.ofUnsigned? cs with
    | some x => if x.isFinite then some (if negative then x.neg else x) else none
    | none => none

/-- The value of a double; only finite ones have any. -/
def ofFloat (x : Binary64) : Json := if x.isFinite then .num (.float x) else .null

/-- The value of a plain scalar; none if it is an integer that no value can hold. -/
def value? (s : String) : Option Json :=
  if s.isEmpty || isNull s then some .null
  else
    match bool? s with
    | some b => some (.bool b)
    | none =>
      match (integer? s).filter isCounted with
      | some n => if isHeld n then some (.num (.int n)) else none
      | none =>
        match if isZeroLed s then none else float? s with
        | some x => some (ofFloat x)
        | none => some (.str s)

/-- The full form of a standard tag. -/
def standardTag (name : String) : String := "tag:yaml.org,2002:" ++ name

/-- The value of a scalar with a tag. -/
def tagged? (tag s : String) : Option Json :=
  if tag = standardTag "bool" then (bool? s).map .bool
  else if tag = standardTag "int" then
    ((integer? s).filter isHeld).map fun n => .num (.int n)
  else if tag = standardTag "float" then (float? s).map ofFloat
  else if tag = standardTag "null" then if isNull s then some .null else none
  else if tag.startsWith "!" then none
  else some (.str s)

/-- The value of a scalar. -/
def ofScalar? (tag : Option String) (style : Style) (s : String) : Option Json :=
  match tag with
  | some tag => tagged? tag s
  | none => if style = .plain then value? s else some (.str s)

end Stepwise.Yaml.Plain
