/-
# What the program answers

The program prints lines and ends with an exit code. When it fails it gives the causes, the
outermost first.

* `Report` : the answer of the program;
* `Console.opened?` : the start of a session with a project;
* `Invocation.report?` : the answer for a project and the lines of the input.
-/
import Stepwise.Console.Arguments
import Stepwise.Console.Session
import Stepwise.Project.Load

namespace Stepwise

/-- The answer of the program. -/
structure Report where
  code : Nat
  printed : List String
  causes : List String
deriving DecidableEq

namespace Report

/-- A program that went well. -/
def success (printed : List String) : Report := ⟨0, printed, []⟩

/-- A program that failed. -/
def failure (printed causes : List String) : Report := ⟨1, printed, causes⟩

/-- A program that did nothing. -/
def ofHalt (h : Halt) : Report := ⟨h.code, [], []⟩

end Report

/-- The causes of an error, the outermost first. -/
def LoadError.causes (root : String) (e : LoadError) : List String :=
  ("failed to load configuration from " ++ root) :: e.message root ::
    match e with
    | .unreadable _ failure => [failure.message]
    | _ => []

namespace Project

/-- The line of a process in the list of all. -/
def line (p : Project) (script : Script) : String :=
  script.name ++ (if script.name = p.settings.mainProcess then " (main)" else "") ++ "  " ++
    script.description

/-- The list of all processes. -/
def listing (p : Project) : List String :=
  if p.scripts.isEmpty then ["No process scripts found"] else p.scripts.map p.line

/-- The settings for running a process. -/
def settingsFor (p : Project) (process : Option String) (autoContinue : Bool) : Settings :=
  { p.settings with
    mainProcess := process.getD p.settings.mainProcess
    autoContinue := p.settings.autoContinue && autoContinue }

/-- Why a process cannot be run. -/
def obstacle? (p : Project) (process : String) : Option String :=
  if p.scripts.isEmpty then some "no process scripts found"
  else if (p.script? process).isNone then some ("unknown process '" ++ process ++ "'")
  else none

end Project

/-- Logs in and starts the main process; gives a report if that is not possible. -/
def Console.opened? (rounds : Nat) (now : Timestamp) (p : Project) (login : Credentials)
    (settings : Settings) : Option (Except Report Console) :=
  match p.obstacle? settings.mainProcess with
  | some cause => some (.error (.failure [] [cause]))
  | none =>
    ((Console.start settings p.scripts now).carry (Shell.login rounds login)).map
      fun (result, c) => match result with
        | .ok () => .ok c
        | .error e => .error (.failure c.printed ["login failed", Console.messageOf e])

/-- The report at the end of a session. -/
def Console.report? (c : Console) : Option Report :=
  c.close.map fun (result, c) => match result with
    | .ok () => .success c.printed
    | .error e => .failure c.printed [Console.messageOf e]

/-- Does with a project what the program was asked for; none if the main process does not come to
rest in so many rounds. -/
def Task.report? (rounds : Nat) (now : Timestamp) (p : Project) (lines : List String) :
    Task → Option Report
  | .list => some (.success p.listing)
  | .run login process autoContinue => do
    match ← Console.opened? rounds now p login (p.settingsFor process autoContinue) with
    | .error report => some report
    | .ok c => (← c.answerAll rounds lines).report?

/-- The answer to a call of the program. -/
def Invocation.report? (rounds : Nat) (now : Timestamp) (project : Except LoadError Project)
    (lines : List String) (i : Invocation) : Option Report :=
  match project with
  | .error e => some (.failure [] (e.causes i.root))
  | .ok p => i.task.report? rounds now p lines

end Stepwise
