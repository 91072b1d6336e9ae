/-
# TOML documents

A document is a list of lines that give keys a value, divided by headers. A header opens the
table into which the keys after it go, or adds a table to an array of tables. A table is opened
once: the header of a table may follow those of the tables in it, but neither a second header
nor a dotted key reopens it.

* `Toml.Line`, `Toml.lines` : the lines of a document;
* `Toml.Slot` : what a key holds while the document is put together;
* `Toml.parse?` : the table that a document describes.
-/
import Stepwise.Toml.Value

namespace Stepwise.Toml

open Text (Reader)
open Text.Reader

/-- A line with something on it. -/
inductive Line where
  | keyValue (path : List String) (name : String) (v : Toml)
  | header (path : List String) (name : String)
  /-- A header that adds a table to an array. -/
  | arrayHeader (path : List String) (name : String)

/-- A line with something on it, up to its end. -/
def line (fuel : Nat) : Reader Line := do
  let found ← content
  endOfLine
  pure found
where
  content : Reader Line := do
    if ← literal? "[[" then
      let (path, name) ← key fuel
      literal "]]"
      pure (.arrayHeader path name)
    else if ← literal? "[" then
      let (path, name) ← key fuel
      literal "]"
      pure (.header path name)
    else
      let (path, name) ← key fuel
      literal "="
      spaces
      return .keyValue path name (← value fuel 0)

/-- The lines of a document. -/
def lines : (fuel : Nat) → Reader (List Line)
  | 0 => failure
  | fuel + 1 => do
    gaps fuel
    if ← atEnd then pure []
    else
      let first ← line fuel
      return first :: (← lines fuel)

/-- How a table came to be. -/
inductive Origin where
  /-- By its own header. -/
  | opened
  /-- By the header of a table in it. -/
  | implied
  /-- By a dotted key. -/
  | dotted
deriving DecidableEq

/-- What a key holds while the document is put together. -/
inductive Slot where
  | value (v : Toml)
  | table (origin : Origin) (members : List (String × Slot))
  /-- The tables of an array, the latest first. -/
  | tables (latest : List (String × Slot)) (earlier : List (List (String × Slot)))

mutual
/-- The value of a slot. -/
def Slot.toToml : Slot → Toml
  | .value v => v
  | .table _ members => .table (Slot.allToToml members)
  | .tables latest earlier => .arr (Slot.listToToml earlier ++ [.table (Slot.allToToml latest)])
/-- The values of several slots. -/
def Slot.allToToml : List (String × Slot) → List (String × Toml)
  | [] => []
  | (name, slot) :: rest => (name, slot.toToml) :: Slot.allToToml rest
/-- The tables of an array, the latest last. -/
def Slot.listToToml : List (List (String × Slot)) → List Toml
  | [] => []
  | members :: rest => Slot.listToToml rest ++ [.table (Slot.allToToml members)]
end

/-- The members of a document. -/
abbrev Slots := List (String × Slot)

/-- Gives a key of an open table a value. The tables of a dotted key are made by dotted keys only. -/
def put? (v : Toml) (name : String) : (path : List String) → Slots → Option Slots
  | [], ms => addMember? ms name (.value v)
  | part :: path, ms =>
    match member? ms part with
    | none => (put? v name path []).map fun sub => ms ++ [(part, .table .dotted sub)]
    | some (.table .dotted sub) =>
      (put? v name path sub).map fun sub => setMember ms part (.table .dotted sub)
    | some (.table .implied sub) =>
      if path.isEmpty then none
      else (put? v name path sub).map fun sub => setMember ms part (.table .implied sub)
    | some (.tables latest earlier) =>
      if path.isEmpty then none
      else (put? v name path latest).map fun latest => setMember ms part (.tables latest earlier)
    | some (.table .opened _) => none
    | some (.value _) => none

/-- Changes the table at the path of a header; the tables on the way are implied. -/
def atPath? (change : Slots → Option Slots) : (path : List String) → Slots → Option Slots
  | [], ms => change ms
  | part :: path, ms =>
    match member? ms part with
    | none => (atPath? change path []).map fun sub => ms ++ [(part, .table .implied sub)]
    | some (.table origin sub) =>
      (atPath? change path sub).map fun sub => setMember ms part (.table origin sub)
    | some (.tables latest earlier) =>
      (atPath? change path latest).map fun latest => setMember ms part (.tables latest earlier)
    | some (.value _) => none

/-- Opens a table. -/
def openTable? (name : String) (ms : Slots) : Option Slots :=
  match member? ms name with
  | none => some (ms ++ [(name, .table .opened [])])
  | some (.table .implied sub) => some (setMember ms name (.table .opened sub))
  | _ => none

/-- Adds a table to an array. -/
def addTable? (name : String) (ms : Slots) : Option Slots :=
  match member? ms name with
  | none => some (ms ++ [(name, .tables [] [])])
  | some (.tables latest earlier) => some (setMember ms name (.tables [] (latest :: earlier)))
  | _ => none

/-- Changes the table that a header has opened. -/
def inOpened? (change : Slots → Option Slots) (name : String) (ms : Slots) : Option Slots :=
  match member? ms name with
  | some (.table origin sub) => (change sub).map fun sub => setMember ms name (.table origin sub)
  | some (.tables latest earlier) =>
    (change latest).map fun latest => setMember ms name (.tables latest earlier)
  | _ => none

/-- The document so far, and the path of the table that is open; none for the outermost. -/
structure Assembly where
  slots : Slots
  current : Option (List String × String)

/-- The document with one more line. -/
def Assembly.add? (a : Assembly) : Line → Option Assembly
  | .keyValue path name v =>
    match a.current with
    | none => (put? v name path a.slots).map fun slots => { a with slots }
    | some (above, opened) =>
      (atPath? (inOpened? (put? v name path) opened) above a.slots).map fun slots =>
        { a with slots }
  | .header path name =>
    (atPath? (openTable? name) path a.slots).map fun slots => ⟨slots, some (path, name)⟩
  | .arrayHeader path name =>
    (atPath? (addTable? name) path a.slots).map fun slots => ⟨slots, some (path, name)⟩

/-- The document that lines make. -/
def assemble? (ls : List Line) : Option (List (String × Toml)) :=
  (ls.foldlM Assembly.add? ⟨[], none⟩).map fun a => Slot.allToToml a.slots

/-- The characters after a byte order mark. -/
def withoutMark : List Char → List Char
  | c :: rest => if c.toNat = 0xFEFF then rest else c :: rest
  | [] => []

/-- Reads a document. -/
def parse? (s : String) : Option (List (String × Toml)) :=
  let cs := withoutMark s.toList
  (whole? (lines (cs.length + 1)) cs).bind assemble?

end Stepwise.Toml
