/-
# Words of a document

The words of a JSON text, found by reading it once, one character at a time. What has been
read of an unfinished word is the state of the reader, so a text is read by a fold.

* `Token` : the words;
* `Token.scan?` : the words of a text, if it consists of words and blanks.
-/
import Stepwise.Json.Number
import Stepwise.Number.Hex

namespace Stepwise.Json

/-- A word of a document. -/
inductive Token where
  | leftBrace
  | rightBrace
  | leftBracket
  | rightBracket
  | comma
  | colon
  | null
  | bool (b : Bool)
  | num (n : Number)
  | str (s : String)
deriving DecidableEq

namespace Token

/-- What has been read of the word at hand. Characters are kept last first. -/
inductive Partial where
  /-- Between two words. -/
  | none
  | number (chars : List Char)
  | name (chars : List Char)
  | text (chars : List Char)
  /-- After a backslash in a text. -/
  | escape (chars : List Char)
  /-- In the four digits of a code unit; the high unit of a pair may have come before. -/
  | unit (chars : List Char) (high : Option Nat) (digits : List Char)
  /-- After a high unit, where only a low one can follow. -/
  | pair (chars : List Char) (high : Nat)
  /-- After the backslash that follows a high unit. -/
  | pairEscape (chars : List Char) (high : Nat)

/-- The reader between two characters: the words found so far, last first. -/
structure Scanner where
  words : List Token
  pending : Partial

/-- The blanks between words. -/
def isSpace (c : Char) : Bool := c = ' ' || c = '\t' || c = '\n' || c = '\r'

/-- The characters of which numbers consist. -/
def isNumberChar (c : Char) : Bool :=
  c.isDigit || c = '-' || c = '+' || c = '.' || c = 'e' || c = 'E'

/-- The words that are spelled with letters. -/
def ofName? (name : String) : Option Token :=
  if name = "null" then some .null
  else if name = "true" then some (.bool true)
  else if name = "false" then some (.bool false)
  else none

/-- The words of one character. -/
def ofMark? (c : Char) : Option Token :=
  if c = Char.ofNat 0x7B then some .leftBrace
  else if c = Char.ofNat 0x7D then some .rightBrace
  else if c = '[' then some .leftBracket
  else if c = ']' then some .rightBracket
  else if c = ',' then some .comma
  else if c = ':' then some .colon
  else none

/-- Starts a word with its first character. -/
def Scanner.start? (words : List Token) (c : Char) : Option Scanner :=
  if isSpace c then some ⟨words, .none⟩
  else if c = '"' then some ⟨words, .text []⟩
  else if c.isDigit || c = '-' then some ⟨words, .number [c]⟩
  else if c.isLower then some ⟨words, .name [c]⟩
  else (ofMark? c).map fun t => ⟨t :: words, .none⟩

/-- The character that an escape of one letter stands for. -/
def escaped? (c : Char) : Option Char :=
  if c = '"' || c = '\\' || c = '/' then some c
  else if c = 'b' then some (Char.ofNat 0x8)
  else if c = 'f' then some (Char.ofNat 0xC)
  else if c = 'n' then some '\n'
  else if c = 'r' then some '\r'
  else if c = 't' then some '\t'
  else none

/-- The reader after the four digits of a code unit: a unit outside the surrogates is a
character, a high one waits for a low one, and both together are a character. -/
def Scanner.ofUnit? (words : List Token) (chars : List Char) (high : Option Nat) (unit : Nat) :
    Option Scanner :=
  let isHigh := 0xD800 ≤ unit && unit < 0xDC00
  let isLow := 0xDC00 ≤ unit && unit < 0xE000
  match high with
  | none =>
    if isHigh then some ⟨words, .pair chars unit⟩
    else if isLow then none
    else some ⟨words, .text (Char.ofNat unit :: chars)⟩
  | some h =>
    if isLow then
      let c := Char.ofNat (0x10000 + (h - 0xD800) * 0x400 + (unit - 0xDC00))
      some ⟨words, .text (c :: chars)⟩
    else none

/-- The words after a pending number or name has ended. -/
def Scanner.close? (s : Scanner) : Option (List Token) :=
  match s.pending with
  | .none => some s.words
  | .number chars => (Number.ofChars? chars.reverse).map (.num · :: s.words)
  | .name chars => (ofName? (String.ofList chars.reverse)).map (· :: s.words)
  | _ => none

/-- Reads one character. -/
def Scanner.step? (s : Scanner) (c : Char) : Option Scanner :=
  match s.pending with
  | .none => start? s.words c
  | .number chars =>
    if isNumberChar c then some ⟨s.words, .number (c :: chars)⟩
    else s.close?.bind (start? · c)
  | .name chars =>
    if c.isLower then some ⟨s.words, .name (c :: chars)⟩
    else s.close?.bind (start? · c)
  | .text chars =>
    if c = '"' then some ⟨.str (String.ofList chars.reverse) :: s.words, .none⟩
    else if c = '\\' then some ⟨s.words, .escape chars⟩
    else if c.toNat < 0x20 then none
    else some ⟨s.words, .text (c :: chars)⟩
  | .escape chars =>
    if c = 'u' then some ⟨s.words, .unit chars none []⟩
    else (escaped? c).map fun e => ⟨s.words, .text (e :: chars)⟩
  | .unit chars high digits =>
    if digits.length < 3 then some ⟨s.words, .unit chars high (c :: digits)⟩
    else (Hex.nat? (c :: digits).reverse).bind (ofUnit? s.words chars high ·)
  | .pair chars high => if c = '\\' then some ⟨s.words, .pairEscape chars high⟩ else none
  | .pairEscape chars high =>
    if c = 'u' then some ⟨s.words, .unit chars (some high) []⟩ else none

/-- The words of a text in order. -/
def scan? (s : String) : Option (List Token) :=
  (s.toList.foldlM Scanner.step? ⟨[], .none⟩).bind fun e => e.close?.map List.reverse

end Token

end Stepwise.Json
