/-
# Commands at the console

A line begins with a command, which a blank separates from the rest. Only `set` looks at the
rest: a name and a value around an equals sign.

* `Input` : what a line asks for;
* `Input.ofLine` : the reading of a line.
-/
import Stepwise.Json.Parser
import Stepwise.Shell.Action
import Stepwise.Text.Blank

namespace Stepwise

/-- What a line asks for. -/
inductive Input where
  | action (a : ShellAction)
  | help
  | quit
  | nothing

/-- Why a line asks for nothing that is known. -/
inductive InputError where
  /-- The value to be set lacks its equals sign. -/
  | unassigned
  | unknown (command : String)
deriving DecidableEq

/-- The message of an error. -/
def InputError.message : InputError → String
  | .unassigned => "usage: set NAME=VALUE"
  | .unknown command => "unknown command '" ++ command ++ "', try 'help'"

namespace Input

/-- The text before the first occurrence of a character, and the text after it if it occurs. -/
def cut (c : Char) (s : String) : String × Option String :=
  match s.toList.span (· ≠ c) with
  | (front, []) => (String.ofList front, none)
  | (front, _ :: back) => (String.ofList front, some (String.ofList back))

/-- The value that a text writes: a document, or else the text itself. -/
def valueOf (s : String) : Value := .ofTree ((Json.parse? s).getD (.str s))

/-- Reads the name and the value of a field. -/
def ofAssignment (s : String) : Except InputError Input :=
  match cut '=' s with
  | (_, none) => .error .unassigned
  | (name, some value) =>
    .ok (.action (.edit (Text.trim name) (valueOf (Text.trim value))))

/-- Reads a line. -/
def ofLine (line : String) : Except InputError Input :=
  let (command, rest) := cut ' ' (Text.trim line)
  match command with
  | "" => .ok .nothing
  | "next" => .ok (.action .next)
  | "back" => .ok (.action .previous)
  | "cancel" => .ok (.action .cancel)
  | "reload" => .ok (.action .reload)
  | "yes" => .ok (.action (.confirm true))
  | "no" => .ok (.action (.confirm false))
  | "pause" => .ok (.action .pause)
  | "resume" => .ok (.action .resume)
  | "logout" => .ok (.action .logout)
  | "set" => ofAssignment (rest.getD "")
  | "help" => .ok .help
  | "quit" => .ok .quit
  | "exit" => .ok .quit
  | other => .error (.unknown other)

/-- The line that lists the commands. -/
def helpLine : String :=
  "commands: next, back, cancel, reload, set NAME=VALUE, yes, no, pause, resume, logout, quit"

end Input

end Stepwise
