/-
# Scalars of YAML

How the text of a scalar is read: plain, between quotes, or as a block of indented lines. A
single line end within a plain or quoted scalar stands for a blank; of several, the first is
left out.

* `Style` : the ways to write a scalar;
* `Gap.folded` : what blanks and line ends stand for;
* `Lexer.plain`, `Lexer.quoted`, `Lexer.block` : the text of a scalar.
-/
import Stepwise.Number.Hex
import Stepwise.Yaml.Cursor

namespace Stepwise.Yaml

/-- The ways to write a scalar. -/
inductive Style where
  | plain
  | quoted
  /-- A block whose line ends are kept. -/
  | literal
  | folded
deriving DecidableEq

/-- Blanks and line ends in the middle of a scalar. -/
structure Gap where
  /-- The blanks, if there was no line end. -/
  blanks : List Char
  /-- The first line end; empty if it was escaped. -/
  first : Option (List Char)
  /-- The line ends after the first. -/
  more : List Char

/-- No blank. -/
def Gap.empty : Gap := ⟨[], none, []⟩

/-- What a gap stands for. -/
def Gap.folded (g : Gap) : List Char :=
  match g.first with
  | none => g.blanks
  | some b => if b = ['\n'] then (if g.more.isEmpty then [' '] else g.more) else b ++ g.more

namespace Lexer

/-- Reads the rest of a gap. After a line end a tab must not stand left of a column. -/
def gap (limit : Nat) : (fuel : Nat) → Gap → Lexer Gap
  | 0, g => pure g
  | fuel + 1, g => do
    match ← peek? 0 with
    | none => pure g
    | some c =>
      if isSpace c then
        if g.first.isNone then
          skip 1
          gap limit fuel { g with blanks := g.blanks ++ [c] }
        else
          require (c = ' ' || limit ≤ (← column))
          skip 1
          gap limit fuel g
      else if isBreak c then
        let b ← lineBreak
        match g.first with
        | none => gap limit fuel ⟨[], some b, []⟩
        | some _ => gap limit fuel { g with more := g.more ++ b }
      else pure g

/-! ## Plain scalars -/

/-- The indicators of flow collections. -/
def isFlowMark (c : Char) : Bool := c = ',' || c = '[' || c = ']' || c = '\x7b' || c = '\x7d'

/-- The characters of a plain scalar up to a blank or an indicator that ends it. Within a flow
collection a colon must not stand before an indicator. -/
def plainWord? (flow : Bool) : List Char → Option (List Char)
  | [] => some []
  | c :: rest =>
    if isGap c then some []
    else if c = ':' then
      if flow && rest.head?.any (fun d => isFlowMark d || d = '?') then none
      else if rest.head?.all isGap then some []
      else (plainWord? flow rest).map (c :: ·)
    else if flow && isFlowMark c then some []
    else (plainWord? flow rest).map (c :: ·)

/-- Reads a plain scalar from its next word on: the text, and whether line ends follow it. The lines
after the first begin at least at the column `limit`, except in flow collections. -/
def plainFrom (flow : Bool) (limit : Nat) : (fuel : Nat) → (text : List Char) → Gap →
    Lexer (List Char × Bool)
  | 0, text, g => pure (text, g.first.isSome)
  | fuel + 1, text, g => do
    if (← atDocumentMark) || (← sees '#') then pure (text, g.first.isSome)
    else
      match plainWord? flow (← get).rest with
      | none => failure
      | some w =>
        skip w.length
        let text := if w.isEmpty then text else text ++ g.folded ++ w
        let g := if w.isEmpty then g else Gap.empty
        if (← get).rest.head?.any isGap then
          let g ← gap limit ((← get).rest.length + 1) g
          if !flow && (← column) < limit then pure (text, g.first.isSome)
          else plainFrom flow limit fuel text g
        else pure (text, g.first.isSome)

/-- Reads a plain scalar. -/
def plain (flow : Bool) (limit : Nat) : Lexer (String × Bool) := do
  let (text, broken) ← plainFrom flow limit ((← get).rest.length + 1) [] .empty
  pure (String.ofList text, broken)

/-! ## Quoted scalars -/

/-- The character that a letter stands for after a backslash. -/
def escaped? (c : Char) : Option Char :=
  match c with
  | '0' => some '\x00'
  | 'a' => some '\x07'
  | 'b' => some '\x08'
  | 't' => some '\t'
  | '\t' => some '\t'
  | 'n' => some '\n'
  | 'v' => some '\x0b'
  | 'f' => some '\x0c'
  | 'r' => some '\r'
  | 'e' => some '\x1b'
  | ' ' => some ' '
  | '"' => some '"'
  | '/' => some '/'
  | '\\' => some '\\'
  | 'N' => some (Char.ofNat 0x85)
  | '_' => some (Char.ofNat 0xA0)
  | 'L' => some (Char.ofNat 0x2028)
  | 'P' => some (Char.ofNat 0x2029)
  | _ => none

/-- How many hexadecimal digits follow a letter after a backslash. -/
def codeLength (c : Char) : Nat :=
  match c with
  | 'x' => 2
  | 'u' => 4
  | 'U' => 8
  | _ => 0

/-- Reads an escape after its backslash. -/
def escape : Lexer Char := do
  match ← peek? 0 with
  | none => failure
  | some c =>
    skip 1
    match codeLength c with
    | 0 => (escaped? c : Option Char)
    | count =>
      let ds := (← get).rest.take count
      require (ds.length = count)
      match Hex.nat? ds with
      | none => failure
      | some n =>
        require (n < 0xD800 || (0xDFFF < n && n < 0x110000))
        skip count
        pure (Char.ofNat n)

/-- Reads the characters of a quoted scalar up to a gap or the closing quote. The flag tells that
an escaped line end comes first in the gap. -/
def quotedWord (quote : Char) : (fuel : Nat) → (word : List Char) → Lexer (List Char × Bool)
  | 0, word => pure (word, false)
  | fuel + 1, word => do
    match ← peek? 0 with
    | none => failure
    | some c =>
      if isGap c then pure (word, false)
      else if c = quote then
        if quote = '\'' && (← peek? 1) == some '\'' then
          skip 2
          quotedWord quote fuel (word ++ ['\''])
        else pure (word, false)
      else if c = '\\' && quote = '"' then
        skip 1
        if ← atBreak then
          let _ ← lineBreak
          pure (word, true)
        else
          let x ← escape
          quotedWord quote fuel (word ++ [x])
      else
        skip 1
        quotedWord quote fuel (word ++ [c])

/-- Reads a quoted scalar after its opening quote. -/
def quotedFrom (quote : Char) : (fuel : Nat) → (text : List Char) → Lexer (List Char)
  | 0, _ => failure
  | fuel + 1, text => do
    require !(← atDocumentMark)
    let size := (← get).rest.length + 1
    let (w, escapedBreak) ← quotedWord quote size []
    if !escapedBreak && (← take? quote) then pure (text ++ w)
    else
      let g ← gap 0 size (if escapedBreak then ⟨[], some [], []⟩ else .empty)
      quotedFrom quote fuel (text ++ w ++ g.folded)

/-- Reads a quoted scalar. -/
def quoted (quote : Char) : Lexer String := do
  skip 1
  return String.ofList (← quotedFrom quote ((← get).rest.length + 1) [])

/-! ## Block scalars -/

/-- What becomes of the line ends at the end of a block. -/
inductive Chomping where
  | strip
  | clip
  | keep
deriving DecidableEq

/-- Reads the chomping indicator. -/
def chomping? : Lexer (Option Chomping) := do
  if ← take? '+' then pure (some .keep)
  else if ← take? '-' then pure (some .strip)
  else pure none

/-- Reads the indentation indicator, a digit above zero. -/
def increment? : Lexer (Option Nat) := do
  match ← peek? 0 with
  | some c =>
    if c.isDigit then
      require (c ≠ '0')
      skip 1
      pure (some (c.toNat - '0'.toNat))
    else pure none
  | none => pure none

/-- Reads the two indicators in any order. -/
def blockHeader : Lexer (Chomping × Option Nat) := do
  match ← chomping? with
  | some c => return (c, ← increment?)
  | none =>
    let n ← increment?
    return ((← chomping?).getD .clip, n)

/-- Reads indentation and empty lines up to a line with text. Gives the line ends and the largest
column reached. If the indentation is known, no more than that is taken from a line. -/
def emptyLines (indent : Option Nat) : (fuel : Nat) → (breaks : List Char) → (widest : Nat) →
    Lexer (List Char × Nat)
  | 0, breaks, widest => pure (breaks, widest)
  | fuel + 1, breaks, widest => do
    let c ← get
    let spaces := (c.rest.takeWhile (· = ' ')).length
    skip (match indent with
      | some n => min spaces (n - c.column)
      | none => spaces)
    let column ← column
    let widest := max widest column
    require !((← sees '\t') && indent.all (column < ·))
    if ← atBreak then
      let b ← lineBreak
      emptyLines indent fuel (breaks ++ b) widest
    else pure (breaks, widest)

/-- The text of a block while it is read. -/
structure BlockText where
  text : List Char
  /-- The end of the last line. -/
  lastBreak : List Char
  /-- The empty lines after it. -/
  breaks : List Char
  /-- The last line began with a blank. -/
  indented : Bool

/-- What stands for the line ends before a line; `indented` tells that the line begins with a
blank. -/
def BlockText.joint (b : BlockText) (folded indented : Bool) : List Char :=
  if folded && b.lastBreak = ['\n'] && !b.indented && !indented then
    if b.breaks.isEmpty then [' '] else b.breaks
  else b.lastBreak ++ b.breaks

/-- Reads the lines of a block with a known indentation. -/
def blockLines (folded : Bool) (indent : Nat) : (fuel : Nat) → BlockText → Lexer BlockText
  | 0, b => pure b
  | fuel + 1, b => do
    if (← column) = indent && !(← atEnd) then
      let indented := (← get).rest.head?.any isSpace
      let joint := b.joint folded indented
      let text ← line
      let lastBreak ← lineBreak
      let (breaks, _) ← emptyLines (some indent) ((← get).rest.length + 1) [] 0
      blockLines folded indent fuel ⟨b.text ++ joint ++ text, lastBreak, breaks, indented⟩
    else pure b

/-- Reads a block inside of a collection whose column is `outer`, which is -1 outside of all. -/
def block (folded : Bool) (outer : Int) : Lexer String := do
  skip 1
  let (chomping, increment) ← blockHeader
  endOfLine
  let size := (← get).rest.length + 1
  let given := increment.map fun n => (max outer 0).toNat + n
  let (breaks, widest) ← emptyLines given size [] 0
  let indent := given.getD (max widest (max (outer + 1) 1).toNat)
  let b ← blockLines folded indent size ⟨[], [], breaks, false⟩
  let ending := match chomping with
    | .strip => []
    | .clip => b.lastBreak
    | .keep => b.lastBreak ++ b.breaks
  pure (String.ofList (b.text ++ ending))

end Lexer

end Stepwise.Yaml
