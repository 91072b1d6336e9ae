/-
# Blank characters

The characters that count as blank when user text is trimmed: exactly those with
Unicode's `White_Space` property. A zero-width space or a byte order mark is not blank.

* `isBlank` : the class of characters;
* `trim` : a text without its blank ends;
* `isBlankText` : a text with nothing but blanks.
-/

namespace Stepwise.Text

/-- The code points with the `White_Space` property, as closed ranges in ascending order. -/
def blankRanges : List (Nat × Nat) :=
  [(0x9, 0xD), (0x20, 0x20), (0x85, 0x85), (0xA0, 0xA0), (0x1680, 0x1680),
   (0x2000, 0x200A), (0x2028, 0x2029), (0x202F, 0x202F), (0x205F, 0x205F),
   (0x3000, 0x3000)]

/-- A character is blank if its code point lies in one of the ranges. -/
def isBlank (c : Char) : Bool :=
  blankRanges.any fun (first, last) => first ≤ c.toNat && c.toNat ≤ last

/-- The characters after the leading blanks. -/
def trimStart (cs : List Char) : List Char := cs.dropWhile isBlank

/-- The characters before the trailing blanks. -/
def trimEnd (cs : List Char) : List Char := (cs.reverse.dropWhile isBlank).reverse

/-- A text without its leading and trailing blanks. -/
def trim (s : String) : String := String.ofList (trimEnd (trimStart s.toList))

/-- Every character of the text is blank; the empty text is. -/
def isBlankText (s : String) : Bool := s.toList.all isBlank

end Stepwise.Text
