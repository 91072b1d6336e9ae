/-
# Readers

A reader takes characters from the front of a text, or refuses. Readers are put together with
do-notation.

* `Reader` : what takes characters;
* `next`, `takeWhile`, `literal`, `literal?`, `exactly` : the elements;
* `Reader.whole?` : a reader that has to take everything.
-/

namespace Stepwise.Text

/-- A reader of an `α` from the front of a text. -/
abbrev Reader (α : Type) := StateT (List Char) Option α

namespace Reader

variable {α : Type}

/-- Runs a reader that has to take the whole text. -/
def whole? (r : Reader α) (cs : List Char) : Option α :=
  match r.run cs with
  | some (a, []) => some a
  | _ => none

/-- Refuses unless something holds. -/
def require (b : Bool) : Reader Unit := if b then pure () else failure

/-- The next character, if any, which is not taken. -/
def peek? : Reader (Option Char) := do return (← get).head?

/-- Takes the next character. -/
def next : Reader Char := do
  match ← get with
  | c :: rest =>
    set rest
    pure c
  | [] => failure

/-- Takes the next character if it is of a kind. -/
def one (kind : Char → Bool) : Reader Char := do
  let c ← next
  require (kind c)
  pure c

/-- Takes characters of a kind as long as there are any. -/
def takeWhile (kind : Char → Bool) : Reader (List Char) := do
  let cs ← get
  set (cs.dropWhile kind)
  pure (cs.takeWhile kind)

/-- Takes so many characters of a kind. -/
def exactly (count : Nat) (kind : Char → Bool) : Reader (List Char) := do
  let cs ← get
  let taken := cs.take count
  require (taken.length = count && taken.all kind)
  set (cs.drop count)
  pure taken

/-- Takes a text if it comes next, and tells whether it did. -/
def literal? (s : String) : Reader Bool := do
  let cs ← get
  let expected := s.toList
  if cs.take expected.length = expected then
    set (cs.drop expected.length)
    pure true
  else pure false

/-- Takes a text that has to come next. -/
def literal (s : String) : Reader Unit := do require (← literal? s)

/-- The text is used up. -/
def atEnd : Reader Bool := do return (← get).isEmpty

end Reader

end Stepwise.Text
