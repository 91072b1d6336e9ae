/-
# Loading a project

A project lies in the folder `.procdesk`: the settings in `config.toml`, the scripts in files of
the folder `processes`. What is absent has its default. The first problem in order counts: that
of the settings, then those of the scripts by the names of their files.

* `Project` : settings and scripts;
* `Reader`, `Sources` : how files are read, and the files of a project;
* `Project.load` : the project of some files, or the first problem with it;
* `Project.inFolder` : the project of a folder.
-/
import Stepwise.Project.Files
import Stepwise.Project.Folder
import Stepwise.Text.Blank

namespace Stepwise

/-- Settings and scripts. -/
structure Project where
  settings : Settings
  scripts : List Script
deriving Inhabited

/-- The script of a process. -/
def Project.script? (p : Project) (name : String) : Option Script :=
  p.scripts.find? (·.name == name)

/-- A file of a project. -/
inductive ProjectFile where
  | settings
  /-- A file of the scripts, by its name. -/
  | script (name : String)
deriving DecidableEq

/-- The folder of a project. -/
def Project.folderName : String := ".procdesk"

/-- The folder of the scripts. -/
def Project.scriptsName : String := "processes"

/-- The file of the settings. -/
def Project.settingsName : String := "config.toml"

/-- The path of a file. -/
def ProjectFile.path (root : String) : ProjectFile → String
  | .settings => Path.joined (Path.joined root Project.folderName) Project.settingsName
  | .script name =>
    Path.joined (Path.joined (Path.joined root Project.folderName) Project.scriptsName) name

/-- Why a project cannot be loaded. -/
inductive LoadError where
  | unreadable (file : ProjectFile) (failure : ReadFailure)
  | malformedSettings
  | malformedScript (file : String)
  /-- The settings name no main process. -/
  | noMainProcess
  /-- The script of a process has no steps. -/
  | noSteps (file processName : String)
  /-- Another file has a script for the process. -/
  | duplicate (file processName : String)

namespace LoadError

/-- The file with the problem. -/
def file : LoadError → ProjectFile
  | .unreadable file _ => file
  | .malformedSettings => .settings
  | .malformedScript file => .script file
  | .noMainProcess => .settings
  | .noSteps file _ => .script file
  | .duplicate file _ => .script file

/-- What is wrong with the contents of a project whose files can all be read. -/
def reason? : LoadError → Option String
  | .noMainProcess => some "main_process must not be empty"
  | .noSteps _ name => some ("process '" ++ name ++ "' has no steps")
  | .duplicate _ name => some ("duplicate process name '" ++ name ++ "'")
  | _ => none

/-- The message of an error, for a project below `root`. -/
def message (root : String) (e : LoadError) : String :=
  let path := e.file.path root
  match e with
  | .unreadable _ failure => "Failed to read procdesk file " ++ path ++ ": " ++ failure.message
  | .malformedSettings => "Malformed client config " ++ path
  | .malformedScript _ => "Malformed process script " ++ path
  | _ => "Invalid procdesk project at " ++ path ++ ": " ++ e.reason?.getD ""

end LoadError

/-- How the files `F` of a project are read. -/
structure Reader (F : Type) where
  text? : F → Except ReadFailure String
  /-- The settings that a text describes. -/
  settings? : String → Option Settings
  /-- The script that a text describes. -/
  script? : String → Option Script

/-- The files of a project. -/
structure Sources (F : Type) where
  /-- The file of the settings. -/
  settings : Option F
  /-- What the folder of the scripts holds, in any order. -/
  scripts : List (String × F)

namespace Project

variable {F : Type}

/-- The file of a script has one of two extensions. -/
def isScriptName (name : String) : Bool :=
  Path.extension? name = some "yaml" || Path.extension? name = some "yml"

/-- The files of scripts, by their names. -/
def scriptFiles (sources : Sources F) : List (String × F) :=
  (sources.scripts.filter fun e => isScriptName e.1).mergeSort fun a b => a.1 ≤ b.1

/-- Reads the text of a file. -/
def readText (r : Reader F) (file : ProjectFile) (f : F) : Except LoadError String :=
  (r.text? f).mapError (.unreadable file)

/-- Reads the settings; they have to name a main process. -/
def loadSettings (r : Reader F) : Option F → Except LoadError Settings
  | none => .ok .standard
  | some f => do
    let text ← readText r .settings f
    match r.settings? text with
    | none => .error .malformedSettings
    | some settings =>
      if Text.isBlankText settings.mainProcess then .error .noMainProcess else .ok settings

/-- Reads a script; it has to have steps. -/
def loadScript (r : Reader F) (name : String) (f : F) : Except LoadError Script := do
  let text ← readText r (.script name) f
  match r.script? text with
  | none => .error (.malformedScript name)
  | some script => if script.steps.isEmpty then .error (.noSteps name script.name) else .ok script

/-- Reads one more script; its process must not have one already. -/
def addScript (r : Reader F) (scripts : List Script) (file : String × F) :
    Except LoadError (List Script) := do
  let script ← loadScript r file.1 file.2
  if scripts.any (·.name == script.name) then .error (.duplicate file.1 script.name)
  else .ok (scripts ++ [script])

/-- Loads a project. -/
def load (r : Reader F) (sources : Sources F) : Except LoadError Project := do
  let settings ← loadSettings r sources.settings
  let scripts ← (scriptFiles sources).foldlM (addScript r) []
  .ok ⟨settings, scripts⟩

/-- The files of the project below a folder. -/
def sourcesIn (e : Entry) : Sources Entry :=
  match e.child? folderName with
  | none => ⟨none, []⟩
  | some project =>
    ⟨project.child? settingsName, ((project.child? scriptsName).map Entry.entries).getD []⟩

/-- How entries of folders are read. -/
def entryReader : Reader Entry := ⟨Entry.text?, Settings.ofFile?, Script.ofFile?⟩

/-- The project below a folder; without the folder nothing is there. -/
def inFolder (e : Option Entry) : Except LoadError Project :=
  load entryReader (sourcesIn (e.getD .empty))

end Project

end Stepwise
