/-
# Places in a YAML text

Where a token of YAML may stand depends on line and column, so its text is read with a cursor
that counts them.

* `Cursor`, `Lexer` : a place in a text, and what reads on from it;
* `isBreak`, `isSpace` : line ends and blanks;
* `Lexer.line`, `Lexer.takeWhile`, `Lexer.lineBreak` : the elements.
-/

namespace Stepwise.Yaml

/-- A place in a text. -/
structure Cursor where
  rest : List Char
  /-- The characters before the place, those of its line, and the lines before it. -/
  index : Nat
  column : Nat
  line : Nat

/-- The start of a text. -/
def Cursor.start (cs : List Char) : Cursor := ⟨cs, 0, 0, 0⟩

/-- A character that ends a line. -/
def isBreak (c : Char) : Bool :=
  c = '\n' || c = '\r' || c.toNat = 0x85 || c.toNat = 0x2028 || c.toNat = 0x2029

/-- A blank within a line. -/
def isSpace (c : Char) : Bool := c = ' ' || c = '\t'

/-- A blank or the end of a line. -/
def isGap (c : Char) : Bool := isSpace c || isBreak c

/-- A character of names. -/
def isWord (c : Char) : Bool := c.isAlphanum || c = '_' || c = '-'

/-- A character that may stand in a text at all. -/
def isAllowed (c : Char) : Bool :=
  let n := c.toNat
  n = 0x9 || n = 0xA || n = 0xD || (0x20 ≤ n && n ≤ 0x7E) || n = 0x85 ||
    (0xA0 ≤ n && n ≤ 0xFFFD) || 0x10000 ≤ n

/-- What reads on from a place. -/
abbrev Lexer (α : Type) := StateT Cursor Option α

namespace Lexer

/-- Refuses unless something holds. -/
def require (b : Bool) : Lexer Unit := if b then pure () else failure

/-- The character that comes after `n` others. -/
def peek? (n : Nat) : Lexer (Option Char) := do return (← get).rest[n]?

/-- The next character is a given one. -/
def sees (c : Char) : Lexer Bool := do return (← get).rest.head? == some c

/-- A blank, the end of a line, or the end of the text comes after `n` characters. -/
def gapAfter (n : Nat) : Lexer Bool := do return (← peek? n).all isGap

/-- The column of the place. -/
def column : Lexer Nat := do return (← get).column

/-- The text is used up. -/
def atEnd : Lexer Bool := do return (← get).rest.isEmpty

/-- Takes so many characters of one line. -/
def skip (count : Nat) : Lexer Unit :=
  modify fun c =>
    { c with rest := c.rest.drop count, index := c.index + count, column := c.column + count }

/-- Takes a character if it comes next, and tells whether it did. -/
def take? (c : Char) : Lexer Bool := do
  if ← sees c then
    skip 1
    pure true
  else pure false

/-- Takes the characters of a kind that come next, all on one line. -/
def takeWhile (kind : Char → Bool) : Lexer (List Char) := do
  let taken := (← get).rest.takeWhile kind
  skip taken.length
  pure taken

/-- Takes the rest of the line. -/
def line : Lexer (List Char) := takeWhile fun c => !isBreak c

/-- Takes the end of a line, if it comes next: the characters for which it stands. -/
def lineBreak : Lexer (List Char) := do
  let c ← get
  let pass (count : Nat) : Lexer Unit :=
    set { c with rest := c.rest.drop count, index := c.index + count, column := 0,
                 line := c.line + 1 }
  match c.rest with
  | '\r' :: '\n' :: _ =>
    pass 2
    pure ['\n']
  | b :: _ =>
    if b.toNat = 0x2028 || b.toNat = 0x2029 then
      pass 1
      pure [b]
    else if isBreak b then
      pass 1
      pure ['\n']
    else pure []
  | [] => pure []

/-- The next character ends a line. -/
def atBreak : Lexer Bool := do return (← get).rest.head?.any isBreak

/-- Blanks, and a comment, up to the end of the line. -/
def endOfLine : Lexer Unit := do
  let _ ← takeWhile isSpace
  if ← sees '#' then
    let _ ← line
  require ((← atEnd) || (← atBreak))
  let _ ← lineBreak

/-- The place is the start of a line on which a document starts or ends. -/
def atDocumentMark : Lexer Bool := do
  let c ← get
  let mark := c.rest.take 3
  return c.column = 0 && (mark = ['-', '-', '-'] || mark = ['.', '.', '.']) &&
    (c.rest[3]?).all isGap

end Lexer

end Stepwise.Yaml
