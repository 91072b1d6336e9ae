/-
# Values and keys of TOML

How quoted texts, keys, arrays and inline tables are read. A text stands between quotes on one
line, or between tripled quotes on several; between double quotes a backslash begins an escape.

* `Toml.quoted` : a text;
* `Toml.key` : a key with its dots;
* `Toml.value` : any value;
* `Toml.putDotted?` : a table after a dotted key was given a value.
-/
import Stepwise.Number.Hex
import Stepwise.Toml.Scalar

namespace Stepwise.Toml

open Text (Reader)
open Text.Reader

/-! ## Blanks and line ends -/

def isSpace (c : Char) : Bool := c = ' ' || c = '\t'

def spaces : Reader Unit := do let _ ← takeWhile isSpace

/-- A line feed, with or without a carriage return before it, if one comes next. -/
def newline? : Reader Bool := do
  if ← literal? "\r\n" then pure true else literal? "\n"

/-- A character that may stand in a comment. -/
def inComment (c : Char) : Bool := c = '\t' || (0x20 ≤ c.toNat && c ≠ '\n')

/-- A comment, if one comes next. -/
def comment? : Reader Bool := do
  if ← literal? "#" then
    let _ ← takeWhile inComment
    pure true
  else pure false

/-- The rest of a line: nothing but blanks and a comment. -/
def endOfLine : Reader Unit := do
  spaces
  let _ ← comment?
  if !(← atEnd) then require (← newline?)

/-- Blanks, comments and line ends between the items of an array. -/
def gaps : (fuel : Nat) → Reader Unit
  | 0 => pure ()
  | fuel + 1 => do
    spaces
    if (← comment?) || (← newline?) then gaps fuel

/-! ## Texts -/

/-- A character that may stand between quotes as it is. -/
def isPlain (c : Char) : Bool := c = '\t' || (0x20 ≤ c.toNat && c.toNat ≠ 0x7F)

/-- The character with a code point in hexadecimal digits. -/
def codePoint (count : Nat) : Reader Char := do
  let ds ← exactly count fun c => (Hex.value? c).isSome
  match Hex.nat? ds with
  | some n =>
    require (n < 0xD800 || (0xDFFF < n && n < 0x110000))
    pure (Char.ofNat n)
  | none => failure

/-- An escape after its backslash. -/
def escape : Reader Char := do
  match ← next with
  | 'b' => pure '\x08'
  | 't' => pure '\t'
  | 'n' => pure '\n'
  | 'f' => pure '\x0c'
  | 'r' => pure '\r'
  | '"' => pure '"'
  | '\\' => pure '\\'
  | 'u' => codePoint 4
  | 'U' => codePoint 8
  | _ => failure

/-- A text on one line, after its opening quote. -/
def shortText (quote : Char) : (fuel : Nat) → Reader (List Char)
  | 0 => failure
  | fuel + 1 => do
    let c ← next
    if c = quote then pure []
    else if c = '\\' && quote = '"' then
      let x ← escape
      return x :: (← shortText quote fuel)
    else
      require (isPlain c)
      return c :: (← shortText quote fuel)

/-- Blanks and line ends after a backslash at the end of a line; there is at least one line end. -/
def continuation (fuel : Nat) : Reader Bool := do
  let start ← get
  spaces
  if ← newline? then
    skip fuel
    pure true
  else
    set start
    pure false
where
  skip : Nat → Reader Unit
    | 0 => pure ()
    | fuel + 1 => do
      spaces
      if ← newline? then skip fuel

/-- A text on several lines, after its opening quotes. One or two quotes may stand anywhere in it,
also in front of the closing ones. -/
def longText (quote : Char) : (fuel : Nat) → Reader (List Char)
  | 0 => failure
  | fuel + 1 => do
    let quotes (count : Nat) : String := String.ofList (List.replicate count quote)
    if ← literal? (quotes 5) then pure [quote, quote]
    else if ← literal? (quotes 4) then pure [quote]
    else if ← literal? (quotes 3) then pure []
    else if ← newline? then return '\n' :: (← longText quote fuel)
    else
      let c ← next
      if c = '\\' && quote = '"' then
        if ← continuation fuel then longText quote fuel
        else
          let x ← escape
          return x :: (← longText quote fuel)
      else
        require (isPlain c)
        return c :: (← longText quote fuel)

/-- A quoted text, on one line or on several. A line end right after the opening quotes does not
count. -/
def quoted (quote : Char) (fuel : Nat) : Reader String := do
  if ← literal? (String.ofList [quote, quote, quote]) then
    let _ ← newline?
    return String.ofList (← longText quote fuel)
  else
    let _ ← next
    return String.ofList (← shortText quote fuel)

/-! ## Keys -/

def isBare (c : Char) : Bool := c.isAlphanum || c = '_' || c = '-'

/-- A part of a key: bare, or a text on one line. -/
def keyPart (fuel : Nat) : Reader String := do
  match ← peek? with
  | some '"' =>
    let _ ← next
    return String.ofList (← shortText '"' fuel)
  | some '\'' =>
    let _ ← next
    return String.ofList (← shortText '\'' fuel)
  | _ =>
    let cs ← takeWhile isBare
    require !cs.isEmpty
    pure (String.ofList cs)

/-- The number of levels that a value, and of parts that a key, stays below. -/
def levelLimit : Nat := 80

/-- The parts of a key. -/
def keyParts : (fuel : Nat) → Reader (List String)
  | 0 => failure
  | fuel + 1 => do
    spaces
    let part ← keyPart fuel
    spaces
    if ← literal? "." then return part :: (← keyParts fuel) else pure [part]

/-- A key: the parts before the last one, and the last one. -/
def key (fuel : Nat) : Reader (List String × String) := do
  let parts ← keyParts fuel
  require (parts.length < levelLimit)
  match parts.getLast? with
  | some last => pure (parts.dropLast, last)
  | none => failure

/-! ## Values -/

/-- A word may hold letters, digits and the marks of numbers, dates and times. -/
def inWord (c : Char) : Bool :=
  c.isAlphanum || c = '+' || c = '-' || c = '_' || c = '.' || c = ':'

/-- A word; after a date a blank and a time belong to it. -/
def word : Reader (List Char) := do
  let cs ← takeWhile inWord
  match ← get with
  | ' ' :: d :: rest =>
    if isDate cs && d.isDigit then
      set (d :: rest)
      return cs ++ ' ' :: (← takeWhile inWord)
    else pure cs
  | _ => pure cs

/-- Adds a member with a new key. -/
def addMember? {α : Type} (ms : List (String × α)) (name : String) (x : α) :
    Option (List (String × α)) :=
  if ms.any (·.1 == name) then none else some (ms ++ [(name, x)])

/-- Replaces the member with a key. -/
def setMember {α : Type} (ms : List (String × α)) (name : String) (x : α) : List (String × α) :=
  ms.map fun e => if e.1 == name then (name, x) else e

/-- The member with a key. -/
def member? {α : Type} (ms : List (String × α)) (name : String) : Option α :=
  (ms.find? (·.1 == name)).map (·.2)

/-- An item of an inline table while it is read: a value, or the table that dotted keys build. -/
inductive Inline where
  | value (v : Toml)
  | dotted (members : List (String × Inline))

/-- An inline table after a key was given a value. Tables that are values stay as they are. -/
def putInline? (v : Toml) (name : String) :
    (path : List String) → List (String × Inline) → Option (List (String × Inline))
  | [], ms => addMember? ms name (.value v)
  | part :: path, ms =>
    match member? ms part with
    | none => (putInline? v name path []).map fun sub => ms ++ [(part, .dotted sub)]
    | some (.dotted sub) =>
      (putInline? v name path sub).map fun sub => setMember ms part (.dotted sub)
    | some (.value _) => none

mutual
/-- The value that an item stands for. -/
def Inline.toToml : Inline → Toml
  | .value v => v
  | .dotted members => .table (Inline.allToToml members)
/-- The members that items stand for. -/
def Inline.allToToml : List (String × Inline) → List (String × Toml)
  | [] => []
  | (name, item) :: rest => (name, item.toToml) :: Inline.allToToml rest
end

mutual
/-- Reads a value that stands inside of `level` others. -/
def value : (fuel : Nat) → (level : Nat) → Reader Toml
  | 0, _ => failure
  | fuel + 1, level => do
    match ← peek? with
    | some '"' => return .str (← quoted '"' fuel)
    | some '\'' => return .str (← quoted '\'' fuel)
    | some '[' =>
      let _ ← next
      require (level + 1 < levelLimit)
      return .arr (← items fuel (level + 1))
    | some '{' =>
      let _ ← next
      require (level + 1 < levelLimit)
      spaces
      if ← literal? "\x7d" then return .table []
      else return .table (Inline.allToToml (← members fuel (level + 1) []))
    | _ =>
      match ofWord? (← word) with
      | some v => pure v
      | none => failure
/-- Reads the items of an array up to its end; a comma may stand behind the last. -/
def items : (fuel : Nat) → (level : Nat) → Reader (List Toml)
  | 0, _ => failure
  | fuel + 1, level => do
    gaps fuel
    if ← literal? "]" then pure []
    else
      let v ← value fuel level
      gaps fuel
      if ← literal? "," then return v :: (← items fuel level)
      else
        literal "]"
        pure [v]
/-- Reads the members of an inline table up to its end; they stand on one line. -/
def members : (fuel : Nat) → (level : Nat) → List (String × Inline) →
    Reader (List (String × Inline))
  | 0, _, _ => failure
  | fuel + 1, level, ms => do
    let (path, name) ← key fuel
    literal "="
    spaces
    let v ← value fuel level
    spaces
    match putInline? v name path ms with
    | none => failure
    | some ms =>
      if ← literal? "," then members fuel level ms
      else
        literal "\x7d"
        pure ms
end

end Stepwise.Toml
