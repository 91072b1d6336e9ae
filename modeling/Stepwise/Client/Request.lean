/-
# Sending requests

How a client sends a request: the snapshot goes out without children and with the marks of
the user's edits, the marks are taken off the client's own copy, and the client is locked
until the response comes.

* `Act.send` : hands a request over and locks the client;
* `Act.proceed` : asks the server to go on from the client's snapshot.
-/
import Stepwise.Client.Basic

namespace Stepwise.Act

variable {V : Type} [ProcessView V]

/-- Hands a request over and locks the client. -/
def send (request : Request) : Act V Outcome := do
  hand request
  modify fun c =>
    { c with locked := true
             phase := if c.phase = .interacting then .running else c.phase }
  tell (.setBusy true)
  Pure.pure .sent

/-- The snapshot that a request carries: no children, all marks. -/
def outgoing (s : Snapshot) : Snapshot := { s with children := [] }

/-- Asks the server to go on from the client's snapshot. The marks are taken off, and a cancel
is noted, before the request is handed over. -/
def proceed (mode : Mode) (event : Option Interaction) : Act V Outcome := do
  let c ← get
  match c.current with
  | none => refuse (.invalidPhase .proceed c.phase)
  | some s =>
    modify fun c =>
      { c with current := some s.clearModified
               cancelSent := if mode = .cancel then true else c.cancelSent }
    send (.continue (outgoing s) mode event)

end Stepwise.Act
