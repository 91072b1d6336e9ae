/-
# Panels of the shell

The panels of the shell form a tree. A panel passes a notice on to its parent; the root panel
handles it. The message area empties itself when a process shows a new step, before it passes
the notice on, since messages belong to the step that produced them. A chain that does not
end in the root leaves the notice unhandled.

* `Panel` : a panel with its chain of parents;
* `Notice`, `Panel.raise` : what panels are told, and what comes of it;
* `toolbarCalls`, `loginCalls`, `messageCalls` : what the panels show.
-/
import Stepwise.Client.Phase
import Stepwise.Shell.Error
import Stepwise.Shell.Session
import Stepwise.View.Board

namespace Stepwise

/-- A panel with its chain of parents. -/
inductive Panel where
  /-- The panel that owns the session. -/
  | root
  /-- A panel that begins a chain without a root. -/
  | orphan (name : String)
  | child (name : String) (parent : Panel)
  /-- The message area. -/
  | messages (parent : Panel)
deriving DecidableEq

/-- What a panel is told. -/
inductive Notice where
  /-- The main process is over. -/
  | processFinished (s : Snapshot)
  /-- A process shows a new step. -/
  | processUpdated (s : Snapshot)
  | logout

/-- The session, and the messages that are shown. -/
structure Desk where
  session : Session
  messages : List String

namespace Desk

/-- Nobody is logged in, no message is shown. -/
def empty : Desk := ⟨.closed, []⟩

instance : Inhabited Desk := ⟨empty⟩

/-- Adds a message. -/
def push (d : Desk) (text : String) : Desk := { d with messages := d.messages ++ [text] }

/-- Removes all messages. -/
def clearMessages (d : Desk) : Desk := { d with messages := [] }

end Desk

/-- The name of a notice in messages. -/
def Notice.text : Notice → String
  | .processFinished _ => "process_finished"
  | .processUpdated _ => "process_updated"
  | .logout => "logout"

/-- What the owner of the session makes of a notice. -/
def Session.handle (session : Session) : Notice → Session
  | .processFinished _ => .closed
  | .processUpdated s => session.remember s
  | .logout => .closed

namespace Panel

/-- The name of the message area. -/
def messagesName : String := "messages"
def toolbarName : String := "toolbar"
def loginName : String := "login"

/-- The name of a panel. -/
def name : Panel → String
  | .root => "root"
  | .orphan name => name
  | .child name _ => name
  | .messages _ => messagesName

/-- The panel to which notices are passed on. -/
def parent? : Panel → Option Panel
  | .root => none
  | .orphan _ => none
  | .child _ parent => some parent
  | .messages parent => some parent

/-- What a message area does with a notice before it is passed on. -/
def noticeMessages (n : Notice) (d : Desk) : Desk :=
  match n with
  | .processUpdated _ => d.clearMessages
  | _ => d

/-- Tells a panel something. -/
def raise (n : Notice) : Panel → Desk → Except ShellError Unit × Desk
  | .root, d => (.ok (), { d with session := d.session.handle n })
  | .orphan name, d => (.error (.unhandled name n.text), d)
  | .child _ parent, d => parent.raise n d
  | .messages parent, d => parent.raise n (noticeMessages n d)

/-- Asks a panel for the user who is logged in. -/
def user (d : Desk) : Panel → Except ShellError (Option User)
  | .root => .ok d.session.user
  | .orphan name => .error (.unhandled name "user_data")
  | .child _ parent => parent.user d
  | .messages parent => parent.user d

/-- The toolbar of the shell. -/
def toolbar : Panel := .child toolbarName .root

/-- The login panel of the shell. -/
def login : Panel := .child loginName .root

end Panel

/-! ## What the panels show -/

/-- The toolbar: empty while nobody is logged in. -/
def toolbarCalls (actions : ActionSet) (loggedIn : Bool) : List PanelCall :=
  let panel := Panel.toolbarName
  .clear panel ::
    if loggedIn then
      [.add panel (.toolbar "process"),
        .add panel (.button "previous" "Previous" actions.previous),
        .add panel (.button "next" "Next" actions.next),
        .add panel (.button "reload" "Reload" actions.reload),
        .add panel (.button "cancel" "Cancel" actions.cancel),
        .add panel (.button "logout" "Log out" true)]
    else []

/-- The login panel, with the reason why a login was rejected. -/
def loginCalls (error : Option String) : List PanelCall :=
  let panel := Panel.loginName
  [.clear panel, .add panel (.label "Please log in")] ++
    (error.map fun text => PanelCall.add panel (.label text)).toList ++
    [.add panel (.button "login" "Log in" true)]

/-- No login panel. -/
def hideLoginCalls : List PanelCall := [.clear Panel.loginName]

/-- The message area. -/
def messageCalls (messages : List String) : List PanelCall :=
  .clear Panel.messagesName ::
    messages.map fun text => .add Panel.messagesName (.label text)

end Stepwise
