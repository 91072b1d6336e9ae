/-
# Reading documents

A document is built from its words by a machine with a stack: the containers around the
value that comes next wait on the stack, and a finished value goes into the topmost of them.
Each word is one step, so reading is a fold over the words.

* `Json.parse?` : the tree of a text, if it is a document with at most 127 levels.
-/
import Stepwise.Json.Basic
import Stepwise.Json.Token

namespace Stepwise.Json

/-- A container that waits for the value under way. Earlier items and members come last first. -/
inductive Frame where
  | arr (done : List Json)
  | obj (done : List (String × Json)) (key : String)

/-- What the next word is read as. -/
inductive Place where
  /-- The beginning of a value. -/
  | value
  /-- The first item of an array, or its end. -/
  | firstItem
  /-- A comma, or the end of an array. -/
  | afterItem (done : List Json)
  /-- The first key of an object, or its end. -/
  | firstKey
  /-- A key. -/
  | key (done : List (String × Json))
  /-- The colon after a key. -/
  | colon (done : List (String × Json)) (key : String)
  /-- A comma, or the end of an object. -/
  | afterMember (done : List (String × Json))
  /-- Nothing: the document is complete. -/
  | finished (tree : Json)

/-- The machine between two words. -/
structure Reader where
  frames : List Frame
  place : Place

/-- The most containers that may be open at once. -/
def levelLimit : Nat := 127

namespace Reader

/-- Puts a finished value where it belongs. -/
def complete (frames : List Frame) (j : Json) : Reader :=
  match frames with
  | [] => ⟨[], .finished j⟩
  | .arr done :: frames => ⟨frames, .afterItem (j :: done)⟩
  | .obj done key :: frames => ⟨frames, .afterMember ((key, j) :: done)⟩

/-- Reads the first word of a value. -/
def begin? (frames : List Frame) (t : Token) : Option Reader :=
  match t with
  | .null => some (complete frames .null)
  | .bool b => some (complete frames (.bool b))
  | .num n => some (complete frames (.num n))
  | .str s => some (complete frames (.str s))
  | .leftBracket => if frames.length < levelLimit then some ⟨frames, .firstItem⟩ else none
  | .leftBrace => if frames.length < levelLimit then some ⟨frames, .firstKey⟩ else none
  | _ => none

/-- Reads one word. -/
def step? (r : Reader) (t : Token) : Option Reader :=
  match r.place, t with
  | .value, t => begin? r.frames t
  | .firstItem, .rightBracket => some (complete r.frames (.arr []))
  | .firstItem, t => begin? (.arr [] :: r.frames) t
  | .afterItem done, .comma => some ⟨.arr done :: r.frames, .value⟩
  | .afterItem done, .rightBracket => some (complete r.frames (.arr done.reverse))
  | .firstKey, .rightBrace => some (complete r.frames (.obj []))
  | .firstKey, .str key => some ⟨r.frames, .colon [] key⟩
  | .key done, .str key => some ⟨r.frames, .colon done key⟩
  | .colon done key, .colon => some ⟨.obj done key :: r.frames, .value⟩
  | .afterMember done, .comma => some ⟨r.frames, .key done⟩
  | .afterMember done, .rightBrace => some (complete r.frames (.obj done.reverse))
  | _, _ => none

end Reader

/-- The tree that a list of words writes. -/
def ofTokens? (words : List Token) : Option Json :=
  (words.foldlM Reader.step? ⟨[], .value⟩).bind fun r =>
    match r.place with
    | .finished j => some j
    | _ => none

/-- The tree that a text writes. -/
def parse? (s : String) : Option Json := (Token.scan? s).bind ofTokens?

end Stepwise.Json
