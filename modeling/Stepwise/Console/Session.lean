/-
# Sessions at the console

The main process is run line by line: every line of input is a command, and all that happens is
printed. The session ends with the input, with a command, or when the main process is over.

* `Console` : the state of a session;
* `Console.open`, `Console.reply`, `Console.close` : its course;
* `Console.answerAll` : a session with all its input.
-/
import Stepwise.Console.Input
import Stepwise.Console.Panel
import Stepwise.Server.Services

namespace Stepwise

/-- A session at the console. -/
structure Console where
  shell : Shell PrintedPanel Server
  toolbar : List PanelItem
  /-- The lines that were printed. -/
  printed : List String

namespace Console

/-- Prints lines. -/
def print (c : Console) (lines : List String) : Console := { c with printed := c.printed ++ lines }

/-- Prints what was drawn since the last time. -/
def flush (c : Console) : Console where
  shell := { c.shell with drawn := [] }
  toolbar := c.shell.drawn.foldl toolbarAfter c.toolbar
  printed := c.printed ++ c.shell.drawn.flatMap ScreenCall.lines

/-- Lets the shell do something and prints what it draws. -/
def carry {α : Type} (act : Shell.Run PrintedPanel Server α) (c : Console) :
    Option (Except ShellError α × Console) :=
  (c.shell.run act).map fun (result, shell) => (result, flush { c with shell })

/-- A console over a fresh server, which asks the user to log in. -/
def start (settings : Settings) (scripts : List Script) (now : Timestamp) : Console :=
  flush ⟨.start settings (Server.services now) (.ofScripts scripts), [], []⟩

/-- Somebody is logged in. -/
def isOpen (c : Console) : Bool := c.shell.phase ≠ .loggedOut

/-- Prints the line that asks for a command. -/
def ask (c : Console) : Console := c.print [prompt c.toolbar]

/-- The message of an error. -/
def messageOf (e : ShellError) : String := e.message ClientId.text

/-- What is printed about the result of an action. -/
def resultLines : Except ShellError Outcome → List String
  | .ok (.ignored reason) => ["ignored: " ++ reason.text]
  | .ok _ => []
  | .error e => [messageOf e]

/-- Does what a line asks for; also tells whether the input goes on. -/
def reply (rounds : Nat) (line : String) (c : Console) : Option (Bool × Console) :=
  match Input.ofLine line with
  | .error e => some (true, c.print [e.message])
  | .ok .nothing => some (true, c)
  | .ok .help => some (true, c.print [Input.helpLine])
  | .ok .quit => some (false, c)
  | .ok (.action a) =>
    (c.carry (Shell.handle rounds a)).map fun (result, c) => (true, c.print (resultLines result))

/-- Takes commands from lines while somebody is logged in. -/
def answerAll (rounds : Nat) : (lines : List String) → Console → Option Console
  | [], c => some (if c.isOpen then c.ask else c)
  | line :: rest, c =>
    if c.isOpen then
      (c.ask.reply rounds line).bind fun (goesOn, c) =>
        if goesOn then answerAll rounds rest c else some c
    else some c

/-- The last line. -/
def closedLine : String := "Session closed"

/-- Logs the user out, if need be. -/
def close (c : Console) : Option (Except ShellError Unit × Console) :=
  if c.isOpen then
    (c.carry Shell.logout).map fun (result, c) => match result with
      | .ok () => (.ok (), c.print [closedLine])
      | .error e => (.error e, c)
  else some (.ok (), c.print [closedLine])

end Console

end Stepwise
