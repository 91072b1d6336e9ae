/-
# The program

Reads the arguments, the files of the project and the input, and prints what the session
answers. What is printed and when the session ends is decided by the session itself.
-/
import Stepwise.Console.Report

namespace Stepwise

/-- How the program is called. -/
def usage : String :=
  "usage: procdesk [--root DIR] list\n" ++
  "       procdesk [--root DIR] run --user NAME [--password PW] [--process NAME]" ++
  " [--no-auto-continue]"

/-- More rounds than any script takes. -/
def roundLimit : Nat := 1000000

/-- Reads what is at a path. Of a folder only that it is one counts. -/
def readEntry (path : String) : IO (Option Entry) := do
  let place := (← IO.currentDir) / path
  if ← place.isDir then return some .empty
  else if ← place.pathExists then return some (.file (← IO.FS.readBinFile place))
  else return none

/-- The names in a folder; none if there is no such folder. -/
def readNames (path : String) : IO (List String) := do
  let place := (← IO.currentDir) / path
  if ← place.isDir then return ((← place.readDir).map (·.fileName)).toList
  else return []

/-- Reads the files of the project below a path. -/
def readSources (root : String) : IO (Sources Entry) := do
  let folder := Path.joined root Project.folderName
  let settings ← readEntry (Path.joined folder Project.settingsName)
  let scriptFolder := Path.joined folder Project.scriptsName
  let names := (← readNames scriptFolder).filter Project.isScriptName
  let scripts ← names.filterMapM fun name => do
    return (← readEntry (Path.joined scriptFolder name)).map (name, ·)
  return ⟨settings, scripts⟩

/-- Prints lines. -/
def printLines (lines : List String) : IO Unit := do
  lines.forM IO.println
  (← IO.getStdout).flush

/-- Prints the lines of a console that are not printed yet. -/
def emptied (c : Console) : IO Console := do
  printLines c.printed
  return { c with printed := [] }

/-- Takes commands from the input while somebody is logged in. -/
partial def converse (c : Console) : IO (Option Console) := do
  if !c.isOpen then return some c
  let c ← emptied c.ask
  let line ← (← IO.getStdin).getLine
  if line.isEmpty then return some c
  match c.reply roundLimit line with
  | none => return none
  | some (goesOn, c) =>
    let c ← emptied c
    if goesOn then converse c else return some c

/-- Prints a report; gives the exit code. -/
def conclude (report : Option Report) : IO UInt32 := do
  match report with
  | none =>
    IO.eprintln "the process does not come to rest"
    return 1
  | some report =>
    printLines report.printed
    report.causes.forM IO.eprintln
    return report.code.toUInt32

/-- Runs a process with commands from the input. -/
def runSession (p : Project) (login : Credentials) (settings : Settings) : IO UInt32 := do
  match Console.opened? roundLimit default p login settings with
  | none => conclude none
  | some (.error report) => conclude (some report)
  | some (.ok c) =>
    let c ← converse (← emptied c)
    conclude (c.bind Console.report?)

/-- Does what the program was asked for. -/
def perform (i : Invocation) : IO UInt32 := do
  match i.task, Project.load Project.entryReader (← readSources i.root) with
  | .run login process autoContinue, .ok p =>
    runSession p login (p.settingsFor process autoContinue)
  | _, project => conclude (i.report? roundLimit default project [])

end Stepwise

/-- The program. -/
def main (args : List String) : IO UInt32 := do
  match Stepwise.Invocation.ofArguments args with
  | .ok i => Stepwise.perform i
  | .error h =>
    IO.eprintln Stepwise.usage
    return h.code.toUInt32
