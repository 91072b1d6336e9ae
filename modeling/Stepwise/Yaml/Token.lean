/-
# Tokens of YAML

A text is cut into tokens: scalars, the marks of flow collections, and for block collections
the starts and ends that follow from the columns. That something is a key shows only at the
colon after it; the mark of the key, and of the mapping that begins with it, are put in front
of it then. A key without a mark of its own stands on one line.

* `Token` : the tokens;
* `Tokens.ofText?` : the tokens of a text.
-/
import Stepwise.Number.Decimal
import Stepwise.Yaml.Scalar

namespace Stepwise.Yaml

/-- A token. -/
inductive Token where
  | sequenceStart
  | mappingStart
  | blockEnd
  | flowSequenceStart
  | flowSequenceEnd
  | flowMappingStart
  | flowMappingEnd
  /-- The dash in front of an item. -/
  | entry
  /-- The comma between items. -/
  | flowEntry
  | key
  | value
  | anchor (name : String)
  | alias (name : String)
  /-- A tag: the handle of its namespace and what follows. -/
  | tag (handle suffix : String)
  | scalar (style : Style) (text : String)
  | documentStart
  | documentEnd
  | version (major minor : Nat)
  /-- The namespace that a handle stands for. -/
  | tagHandle (handle namespaceText : String)
deriving DecidableEq

namespace Tokens

/-- Something that may turn out to be a key. -/
structure Candidate where
  /-- The number of tokens in front of it. -/
  position : Nat
  index : Nat
  column : Nat
  line : Nat
  /-- Nothing else may stand at its place. -/
  required : Bool

/-- What is known at a place of the text. -/
structure State extends Cursor where
  tokens : Array Token
  /-- The column of the innermost block collection, -1 outside of all. -/
  indent : Int
  /-- The columns of the collections around it. -/
  outer : List Int
  /-- For every open flow collection, the innermost first, and for the block around them: what may
  turn out to be a key. -/
  candidates : List (Option Candidate)
  /-- A key may stand here without a mark. -/
  keyAllowed : Bool

/-- The start of a text. -/
def State.start (cs : List Char) : State :=
  { Cursor.start cs with
    tokens := #[], indent := -1, outer := [], candidates := [none], keyAllowed := true }

/-- What finds tokens. -/
abbrev Finder (α : Type) := StateT State Option α

/-- Reads on with the cursor. -/
def lex {α : Type} (l : Lexer α) : Finder α := fun s =>
  (l.run s.toCursor).map fun (a, c) => (a, { s with toCursor := c })

/-- Refuses unless something holds. -/
def require (b : Bool) : Finder Unit := if b then pure () else failure

/-- The place is inside of a flow collection. -/
def inFlow : Finder Bool := do return 1 < (← get).candidates.length

/-- Adds a token. -/
def emit (t : Token) : Finder Unit := modify fun s => { s with tokens := s.tokens.push t }

/-- Puts a token in front of others. -/
def emitAt (position : Nat) (t : Token) : Finder Unit :=
  modify fun s => { s with tokens := s.tokens.insertIdxIfInBounds position t }

/-- Sets whether a key may stand here without a mark. -/
def allowKey (allowed : Bool) : Finder Unit := modify fun s => { s with keyAllowed := allowed }

/-- Sets the innermost candidate. -/
def setCandidate (c : Option Candidate) : Finder Unit :=
  modify fun s => { s with candidates := c :: s.candidates.drop 1 }

/-- The innermost candidate. -/
def candidate? : Finder (Option Candidate) := do return (← get).candidates.head?.join

/-- Gives up the innermost candidate. -/
def dropCandidate : Finder Unit := do
  require !((← candidate?).any (·.required))
  setCandidate none

/-- Notes that what comes next may turn out to be a key. -/
def noteCandidate : Finder Unit := do
  let s ← get
  if s.keyAllowed then
    let required := !(← inFlow) && s.indent = s.column
    dropCandidate
    setCandidate (some ⟨s.tokens.size, s.index, s.column, s.line, required⟩)

/-- The length up to which something may turn out to be a key. -/
def keyLimit : Nat := 1024

/-- Gives up the candidates that end on a line before, or that are too long. -/
def dropStale : Finder Unit := do
  let s ← get
  let stale (c : Candidate) : Bool := c.line < s.line || c.index + keyLimit < s.index
  require !(s.candidates.any fun c : Option Candidate => c.any fun c => stale c && c.required)
  set { s with
    candidates := s.candidates.map fun c : Option Candidate => if c.any stale then none else c }

/-- Begins a block collection at a column, if that is further in. -/
def indentTo (column : Nat) (position : Option Nat) (t : Token) : Finder Unit := do
  let s ← get
  if !(← inFlow) && s.indent < column then
    set { s with outer := s.indent :: s.outer, indent := column }
    match position with
    | some p => emitAt p t
    | none => emit t

/-- Ends the block collections further in than a column. -/
def endBlocks (column : Int) : Finder Unit := do
  if !(← inFlow) then
    modify fun s => close s s.outer
where
  close (s : State) : List Int → State
    | [] => s
    | i :: outer =>
      if column < s.indent then
        close { s with indent := i, outer, tokens := s.tokens.push .blockEnd } outer
      else s

/-- Goes on to the next token: over blanks, comments and line ends. A tab does not indent. -/
def toNext : (fuel : Nat) → Finder Unit
  | 0 => pure ()
  | fuel + 1 => do
    let s ← get
    let tabs := (← inFlow) || !s.keyAllowed
    let _ ← lex (Lexer.takeWhile fun c => c = ' ' || (tabs && c = '\t'))
    if ← lex (Lexer.sees '#') then
      let _ ← lex Lexer.line
    if ← lex Lexer.atBreak then
      let _ ← lex Lexer.lineBreak
      if !(← inFlow) then allowKey true
      toNext fuel

/-! ## Directives, anchors and tags -/

/-- Reads a number of at most nine digits. -/
def versionNumber : Lexer Nat := do
  let ds ← Lexer.takeWhile Char.isDigit
  Lexer.require (!ds.isEmpty && ds.length ≤ 9)
  pure (natOfDigits ds)

/-- A character of a tag; the marks of flow sequences stand only between angle brackets. -/
def isTagChar (bracketed : Bool) (c : Char) : Bool :=
  isWord c || ";/?:@&=+$.!~*'()".contains c || (bracketed && (c = ',' || c = '[' || c = ']'))

/-- Reads the bytes that stand as percent signs with two hexadecimal digits. -/
def percentBytes : (fuel : Nat) → Lexer (List UInt8)
  | 0 => pure []
  | fuel + 1 => do
    if ← Lexer.sees '%' then
      let ds := ((← get).rest.drop 1).take 2
      Lexer.require (ds.length = 2)
      match Hex.nat? ds with
      | some n =>
        Lexer.skip 3
        return n.toUInt8 :: (← percentBytes fuel)
      | none => failure
    else pure []

/-- Reads the characters of a tag. -/
def tagChars (bracketed : Bool) : (fuel : Nat) → Lexer (List Char)
  | 0 => pure []
  | fuel + 1 => do
    let cs ← Lexer.takeWhile (isTagChar bracketed)
    if ← Lexer.sees '%' then
      let bytes ← percentBytes fuel
      match String.fromUTF8? ⟨bytes.toArray⟩ with
      | some s => return cs ++ s.toList ++ (← tagChars bracketed fuel)
      | none => failure
    else pure cs

/-- Reads the characters of a tag up to its end. -/
def tagText (bracketed : Bool) : Lexer (List Char) := do
  tagChars bracketed ((← get).rest.length + 1)

/-- Reads the handle of a tag: exclamation marks around a word, or the first one alone with a word
after it. -/
def handle : Lexer (List Char) := do
  Lexer.require (← Lexer.take? '!')
  let w ← Lexer.takeWhile isWord
  if ← Lexer.take? '!' then pure ('!' :: w ++ ['!']) else pure ('!' :: w)

/-- Reads the rest of a directive that declares a version. -/
def versionDirective : Lexer Token := do
  let _ ← Lexer.takeWhile isSpace
  let major ← versionNumber
  Lexer.require (← Lexer.take? '.')
  return .version major (← versionNumber)

/-- Reads the rest of a directive that declares a handle. -/
def handleDirective : Lexer Token := do
  let _ ← Lexer.takeWhile isSpace
  let h ← handle
  Lexer.require (h = ['!'] || (2 ≤ h.length && h.getLast? = some '!'))
  Lexer.require ((← get).rest.head?.any isSpace)
  let _ ← Lexer.takeWhile isSpace
  let text ← tagText true
  Lexer.require (!text.isEmpty && (← Lexer.gapAfter 0))
  pure (.tagHandle (String.ofList h) (String.ofList text))

/-- Reads a directive. -/
def directive : Lexer Token := do
  Lexer.skip 1
  let name ← Lexer.takeWhile isWord
  Lexer.require (← Lexer.gapAfter 0)
  let t ←
    if name = "YAML".toList then versionDirective
    else if name = "TAG".toList then handleDirective
    else failure
  Lexer.endOfLine
  pure t

/-- The characters that may follow a name. -/
def endsName (c : Char) : Bool := isGap c || "?:,]\x7d%@`".contains c

/-- Reads the name of an anchor or an alias after its mark. -/
def anchorName : Lexer String := do
  Lexer.skip 1
  let name ← Lexer.takeWhile isWord
  Lexer.require (!name.isEmpty && (← Lexer.peek? 0).all endsName)
  pure (String.ofList name)

/-- Reads a tag: between angle brackets, with a handle, or with the first handle. -/
def tag (flow : Bool) : Lexer Token := do
  let t ←
    if (← Lexer.peek? 1) = some '<' then bracketed else short
  Lexer.require ((← Lexer.gapAfter 0) || (flow && (← Lexer.sees ',')))
  pure t
where
  bracketed : Lexer Token := do
    Lexer.skip 2
    let text ← tagText true
    Lexer.require (!text.isEmpty && (← Lexer.take? '>'))
    pure (.tag "" (String.ofList text))
  short : Lexer Token := do
    let h ← handle
    if 2 ≤ h.length && h.getLast? = some '!' then
      let text ← tagText false
      Lexer.require !text.isEmpty
      pure (.tag (String.ofList h) (String.ofList text))
    else
      let text := h.drop 1 ++ (← tagText false)
      pure (if text.isEmpty then .tag "" "!" else .tag "!" (String.ofList text))

/-! ## The next token -/

/-- A mark of one character. -/
def mark (t : Token) : Finder Unit := do
  lex (Lexer.skip 1)
  emit t

/-- The start of a flow collection. -/
def flowStart (t : Token) : Finder Unit := do
  noteCandidate
  modify fun s => { s with candidates := none :: s.candidates }
  allowKey true
  mark t

/-- The end of a flow collection. -/
def flowEnd (t : Token) : Finder Unit := do
  dropCandidate
  modify fun s =>
    { s with candidates := if 1 < s.candidates.length then s.candidates.drop 1 else s.candidates }
  allowKey false
  mark t

/-- The comma between items. -/
def flowEntry : Finder Unit := do
  dropCandidate
  allowKey true
  mark .flowEntry

/-- The dash in front of an item. -/
def entry : Finder Unit := do
  if !(← inFlow) then
    require (← get).keyAllowed
    indentTo (← get).column none .sequenceStart
  dropCandidate
  allowKey true
  mark .entry

/-- The mark of a key. -/
def key : Finder Unit := do
  if !(← inFlow) then
    require (← get).keyAllowed
    indentTo (← get).column none .mappingStart
  dropCandidate
  allowKey !(← inFlow)
  mark .key

/-- The colon after a key. -/
def value : Finder Unit := do
  match ← candidate? with
  | some c =>
    emitAt c.position .key
    indentTo c.column (some c.position) .mappingStart
    setCandidate none
    allowKey false
  | none =>
    if !(← inFlow) then
      require (← get).keyAllowed
      indentTo (← get).column none .mappingStart
    allowKey !(← inFlow)
  mark .value

/-- Something that may turn out to be a key. -/
def possibleKey (l : Lexer Token) : Finder Unit := do
  noteCandidate
  allowKey false
  emit (← lex l)

/-- A block scalar. -/
def blockScalar (style : Style) : Finder Unit := do
  dropCandidate
  allowKey true
  let text ← lex (Lexer.block (style = .folded) (← get).indent)
  emit (.scalar style text)

/-- A plain scalar. After a line end a key may follow. -/
def plainScalar : Finder Unit := do
  noteCandidate
  allowKey false
  let flow ← inFlow
  let (text, broken) ← lex (Lexer.plain flow ((← get).indent + 1).toNat)
  emit (.scalar .plain text)
  if broken then allowKey true

/-- Something that stands outside of all collections. -/
def outside (l : Lexer Token) : Finder Unit := do
  endBlocks (-1)
  dropCandidate
  allowKey false
  emit (← lex l)

/-- The mark at which a document starts or ends. -/
def documentMark : Lexer Token := do
  let t := if ← Lexer.sees '-' then Token.documentStart else Token.documentEnd
  Lexer.skip 3
  pure t

/-- A plain scalar begins with no indicator, or with an indicator that the next character makes
part of a word. -/
def startsPlain (flow : Bool) (c : Char) (next : Option Char) : Bool :=
  !(isGap c || "-?:,[]\x7b\x7d#&*!|>'\"%@`".contains c) ||
    (c = '-' && !next.any isSpace) ||
    (!flow && (c = '?' || c = ':') && !next.all isGap)

/-- Finds the token that begins with a character. -/
def token (c : Char) : Finder Unit := do
  let flow ← inFlow
  let gapNext ← lex (Lexer.gapAfter 1)
  if (← get).column = 0 && c = '%' then outside directive
  else if ← lex Lexer.atDocumentMark then outside documentMark
  else if c = '[' then flowStart .flowSequenceStart
  else if c = '\x7b' then flowStart .flowMappingStart
  else if c = ']' then flowEnd .flowSequenceEnd
  else if c = '\x7d' then flowEnd .flowMappingEnd
  else if c = ',' then flowEntry
  else if c = '-' && gapNext then entry
  else if c = '?' && (flow || gapNext) then key
  else if c = ':' && (flow || gapNext) then value
  else if c = '*' then possibleKey do return .alias (← anchorName)
  else if c = '&' then possibleKey do return .anchor (← anchorName)
  else if c = '!' then possibleKey (tag flow)
  else if c = '|' && !flow then blockScalar .literal
  else if c = '>' && !flow then blockScalar .folded
  else if c = '\'' || c = '"' then possibleKey do return .scalar .quoted (← Lexer.quoted c)
  else
    require (startsPlain flow c (← lex (Lexer.peek? 1)))
    plainScalar

/-- Finds all tokens. -/
def all : (fuel : Nat) → Finder Unit
  | 0 => failure
  | fuel + 1 => do
    toNext (fuel + 1)
    dropStale
    endBlocks (← get).column
    match ← lex (Lexer.peek? 0) with
    | some c =>
      token c
      all fuel
    | none =>
      endBlocks (-1)
      dropCandidate

/-- The tokens of a text. A byte order mark in front does not count. -/
def ofText? (s : String) : Option (List Token) :=
  let cs := match s.toList with
    | c :: rest => if c.toNat = 0xFEFF then rest else c :: rest
    | [] => []
  if cs.all isAllowed then
    ((all (cs.length + 2)).run (State.start cs)).map fun (_, s) => s.tokens.toList
  else none

end Tokens

end Stepwise.Yaml
