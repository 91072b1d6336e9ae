/-
# Panels on a console

A console prints what happens and takes nothing back. Of the panel of a process only the names
of the printed fields are remembered, of the other panels only the toolbar. The panel of a
child process is printed further to the right than that of its parent.

* `PrintedPanel` : the panel of a process;
* `ScreenCall.lines` : what is printed for a call;
* `prompt` : the line that asks for the next command.
-/
import Stepwise.Json.Printer
import Stepwise.Shell.Panel

namespace Stepwise

/-- The panel of a process: the names of the fields that were printed. -/
structure PrintedPanel where
  fields : List String

namespace PrintedPanel

/-- A panel without fields. -/
def empty : PrintedPanel := ⟨[]⟩

instance : Inhabited PrintedPanel := ⟨empty⟩

/-- Carries out a call. -/
def perform (v : PrintedPanel) : ViewCall → Bool × PrintedPanel
  | .render s => (true, ⟨s.parameters.map (·.name)⟩)
  | .updateField p => (v.fields.contains p.name, v)
  | .showFieldError field _ => (v.fields.contains field, v)
  | _ => (true, v)

instance : Toolkit PrintedPanel where
  perform := perform
  childPanel _ _ := empty
  processPanel _ := empty

end PrintedPanel

/-! ## What is printed -/

/-- A value as printed; a dash stands for nothing. -/
def Value.printed (v : Value) : String :=
  match v.tree with
  | .null => "-"
  | .str s => if s.isEmpty then "-" else s
  | tree => tree.text

/-- A field; a star marks one that has to be filled in. -/
def Parameter.line (p : Parameter) : String :=
  "  " ++ p.displayLabel ++ (if p.required then "*" else "") ++ ": " ++ p.value.printed

/-- What is printed when a process stops. -/
def Summary.line : Summary → String
  | .completed processName _ true => processName ++ " was cancelled"
  | .completed processName step false => processName ++ " finished at " ++ step
  | .failed processName message => processName ++ " failed: " ++ message

/-- What is printed for a question. -/
def Question.line : Question → String
  | .cancelProcess processName => "Cancel " ++ processName ++ "? (yes/no)"

/-- What is printed for a call to the panel of a process. -/
def ViewCall.lines : ViewCall → List String
  | .render s =>
    ("== " ++ s.processName ++ " / " ++ s.step ++ " ==") :: s.parameters.map Parameter.line
  | .updateField p => [p.line]
  | .showFieldError field message => ["  ! " ++ field ++ ": " ++ message]
  | .showMessage text => [text]
  | .setBusy _ => []
  | .showSummary s => [s.line]
  | .ask q => [q.line]
  | .openChild s => ["+ " ++ s.processName]

/-- The blanks in front of the lines of the panel at a place. -/
def indentation (place : List Nat) : String :=
  String.ofList (List.replicate (2 * (place.length - 1)) ' ')

/-- What is printed for a call. Of the other panels only labels are printed, and nothing for a
field that is not there. -/
def ScreenCall.lines : ScreenCall → List String
  | .panel (.add _ (.label text)) => [text]
  | .panel _ => []
  | .view place call found => if found then call.lines.map (indentation place ++ ·) else []

/-- The toolbar after a call. -/
def toolbarAfter (toolbar : List PanelItem) : ScreenCall → List PanelItem
  | .panel (.clear panel) => if panel = Panel.toolbarName then [] else toolbar
  | .panel (.add panel item) =>
    if panel = Panel.toolbarName then toolbar ++ [item] else toolbar
  | _ => toolbar

/-- The line that asks for the next command, with the buttons that can be used. -/
def prompt (toolbar : List PanelItem) : String :=
  "[" ++ " ".intercalate (toolbar.filterMap fun
    | .button id _ true => some id
    | _ => none) ++ "]>"

end Stepwise
