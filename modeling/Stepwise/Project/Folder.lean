/-
# Files and folders

A folder holds files and other folders under names. A path leads from a folder to what is
below it, or around it; `.` stays where it is, and `..` leads to the folder around.

* `Entry` : a file or a folder, and `Entry.text?` for the text of a file;
* `Entry.at?` : what a path leads to;
* `joined`, `extension?` : the texts of paths.
-/

namespace Stepwise

/-- A file or a folder. -/
inductive Entry where
  | file (bytes : ByteArray)
  | folder (entries : List (String × Entry))

/-- Why something has no text. -/
inductive ReadFailure where
  | folder
  /-- The bytes are no text in UTF-8. -/
  | undecodable
deriving DecidableEq

/-- The message of a failure to read. -/
def ReadFailure.message : ReadFailure → String
  | .folder => "Is a directory (os error 21)"
  | .undecodable => "stream did not contain valid UTF-8"

namespace Entry

/-- A folder without anything in it. -/
def empty : Entry := .folder []

instance : Inhabited Entry := ⟨empty⟩

/-- The text of a file. -/
def text? : Entry → Except ReadFailure String
  | .folder _ => .error .folder
  | .file bytes =>
    match String.fromUTF8? bytes with
    | some s => .ok s
    | none => .error .undecodable

/-- What a folder holds; a file holds nothing. -/
def entries : Entry → List (String × Entry)
  | .file _ => []
  | .folder entries => entries

/-- What a folder holds under a name. -/
def child? (e : Entry) (name : String) : Option Entry :=
  (e.entries.find? (·.1 == name)).map (·.2)

/-- What the segments of a path lead to from a folder; `around` are the folders around it, the
innermost first. -/
def walk (around : List Entry) (here : Entry) : List String → Option Entry
  | [] => some here
  | segment :: rest =>
    match here with
    | .file _ => none
    | .folder _ =>
      if segment = "" || segment = "." then walk around here rest
      else if segment = ".." then
        match around with
        | [] => none
        | outer :: around => walk around outer rest
      else
        match here.child? segment with
        | some e => walk (here :: around) e rest
        | none => none

/-- What a path leads to from a folder. A path from the very top leads nowhere. -/
def at? (e : Entry) (path : String) : Option Entry :=
  if path.startsWith "/" then none else walk [] e (path.splitOn "/")

end Entry

namespace Path

/-- The path that follows another. -/
def joined (path next : String) : String :=
  if path.isEmpty || path.endsWith "/" then path ++ next else path ++ "/" ++ next

/-- The extension of a name: what follows the last dot, if something is in front of it. -/
def extension? (name : String) : Option String :=
  let cs := name.toList.reverse
  match cs.dropWhile (· ≠ '.') with
  | _ :: _ :: _ => some (String.ofList (cs.takeWhile (· ≠ '.')).reverse)
  | _ => none

end Path

end Stepwise
