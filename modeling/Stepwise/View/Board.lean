/-
# The board

All that is on the screen: panels that hold toolbars, buttons and labels, and the panels of
processes with the panels of their child processes inside them. The panel of a process is
named by its place: the number of the process panel, then the numbers of child panels.

* `PanelTree` : a process panel with its child panels;
* `Board` : everything that was built, and `Board.apply` for one more call.
-/
import Stepwise.View.Recording

namespace Stepwise

/-- A recorded process panel and the child panels opened in it, in order. -/
structure PanelTree where
  recording : Recording
  children : List PanelTree

namespace PanelTree

/-- A panel without children that was told nothing. -/
def empty : PanelTree := ⟨.empty, []⟩

instance : Inhabited PanelTree := ⟨empty⟩

/-- Carries out a call on the panel itself. -/
def perform (t : PanelTree) (call : ViewCall) : Bool × PanelTree :=
  let (found, recording) := t.recording.perform call
  match call with
  | .openChild _ => (found, ⟨recording, t.children ++ [empty]⟩)
  | _ => (found, ⟨recording, t.children⟩)

/-- The panel at a place below. -/
def at? (t : PanelTree) : List Nat → Option PanelTree
  | [] => some t
  | i :: place => (t.children[i]?).bind fun c => c.at? place

/-- Changes the panel at a place below. -/
def modifyAt (f : PanelTree → PanelTree) : List Nat → PanelTree → PanelTree
  | [], t => f t
  | i :: place, t => ⟨t.recording, t.children.modify i (modifyAt f place)⟩

end PanelTree

/-- An item of a panel. -/
inductive PanelItem where
  | toolbar (id : String)
  | button (id label : String) (enabled : Bool)
  | label (text : String)
deriving DecidableEq

/-- A call to the container of all panels. -/
inductive PanelCall where
  /-- Remove all items of a panel. -/
  | clear (panel : String)
  | add (panel : String) (item : PanelItem)
  /-- Open a panel for a process. -/
  | openProcess (processName : String)

/-- A call to anything on the screen. A call to a process panel carries the panel's answer. -/
inductive ScreenCall where
  | panel (call : PanelCall)
  | view (place : List Nat) (call : ViewCall) (found : Bool)

/-- All that is on the screen. -/
structure Board where
  panels : KeyMap (List PanelItem)
  /-- The process panels with the names of their processes, in the order of opening. -/
  processPanels : List (String × PanelTree)

namespace Board

/-- An empty screen. -/
def empty : Board := ⟨.empty, []⟩

instance : Inhabited Board := ⟨empty⟩

/-- The items of a panel. -/
def items (b : Board) (panel : String) : List PanelItem := (b.panels.get? panel).getD []

/-- The first button with an id in a panel: is it enabled? -/
def buttonEnabled? (b : Board) (panel id : String) : Option Bool :=
  (b.items panel).findSome? fun
    | .button i _ enabled => if i == id then some enabled else none
    | _ => none

/-- The labels of a panel. -/
def labels (b : Board) (panel : String) : List String :=
  (b.items panel).filterMap fun
    | .label text => some text
    | _ => none

/-- Carries out a call to the container. -/
def perform (b : Board) : PanelCall → Board
  | .clear panel => { b with panels := b.panels.erase panel }
  | .add panel item => { b with panels := b.panels.insert panel (b.items panel ++ [item]) }
  | .openProcess name => { b with processPanels := b.processPanels ++ [(name, .empty)] }

/-- The process panel at a place. -/
def at? (b : Board) : List Nat → Option PanelTree
  | [] => none
  | i :: place => (b.processPanels[i]?).bind fun e => e.2.at? place

/-- Changes the process panel at a place. -/
def modifyAt (b : Board) (f : PanelTree → PanelTree) : List Nat → Board
  | [] => b
  | i :: place =>
    { b with processPanels :=
        b.processPanels.modify i fun e => (e.1, PanelTree.modifyAt f place e.2) }

/-- Carries out a call to the process panel at a place; false if there is none. -/
def performAt (b : Board) (place : List Nat) (call : ViewCall) : Bool × Board :=
  ((b.at? place).any fun t => (t.perform call).1, b.modifyAt (fun t => (t.perform call).2) place)

/-- The screen after one more call. A call that a panel has turned away leaves no trace. -/
def apply (b : Board) : ScreenCall → Board
  | .panel call => b.perform call
  | .view place call found => if found then (b.performAt place call).2 else b

/-- The screen that a list of calls builds. -/
def ofCalls (calls : List ScreenCall) : Board := calls.foldl apply empty

end Board

end Stepwise
