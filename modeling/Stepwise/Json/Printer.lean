/-
# Writing documents

A document is written without blanks, the members of an object as the tree has them. In a
text only the quote, the backslash and the control characters are escaped.

* `Json.quote` : a text between quotes;
* `Json.text` : a tree.
-/
import Stepwise.Json.Basic
import Stepwise.Number.Hex

namespace Stepwise.Json

/-- A character inside quotes. -/
def escapeChar (c : Char) : List Char :=
  if c = '"' then ['\\', '"']
  else if c = '\\' then ['\\', '\\']
  else if c = '\n' then ['\\', 'n']
  else if c = '\r' then ['\\', 'r']
  else if c = '\t' then ['\\', 't']
  else if c = Char.ofNat 0x8 then ['\\', 'b']
  else if c = Char.ofNat 0xC then ['\\', 'f']
  else if c.toNat < 0x20 then
    ['\\', 'u', '0', '0', Hex.digit (c.toNat / 16), Hex.digit (c.toNat % 16)]
  else [c]

/-- A text between quotes. -/
def quote (s : String) : String := "\"" ++ String.ofList (s.toList.flatMap escapeChar) ++ "\""

mutual
/-- A tree without blanks. -/
def text : Json → String
  | .null => "null"
  | .bool b => if b then "true" else "false"
  | .num n => n.text
  | .str s => quote s
  | .arr items => "[" ++ textItems items ++ "]"
  | .obj members => "\x7b" ++ textMembers members ++ "\x7d"
/-- The items of an array with commas between them. -/
def textItems : List Json → String
  | [] => ""
  | [j] => text j
  | j :: rest => text j ++ "," ++ textItems rest
/-- The members of an object with commas between them. -/
def textMembers : List (String × Json) → String
  | [] => ""
  | [(key, j)] => quote key ++ ":" ++ text j
  | (key, j) :: rest => quote key ++ ":" ++ text j ++ "," ++ textMembers rest
end

end Stepwise.Json
