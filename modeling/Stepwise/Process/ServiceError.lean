/-
# Errors of remote calls

A remote call returns its result or an error. After a recoverable error the client keeps the
user's input and the process goes on; an unrecoverable one ends the process.

* `ServiceError` : the two kinds;
* `withFieldError`, `withReplacement`, `withCause` : each has an effect on one kind only.
-/
import Stepwise.Process.Snapshot

namespace Stepwise

/-- The error of a remote call. -/
inductive ServiceError where
  /-- Rejected input, a conflict, and the like. A replacement is shown in place of the snapshot. -/
  | recoverable (message : String) (fieldErrors : KeyMap String) (replacement : Option Snapshot)
  /-- The process cannot continue. -/
  | unrecoverable (message : String) (cause : Option String)

namespace ServiceError

/-- A recoverable error with a message only. -/
def rejected (message : String) : ServiceError := .recoverable message .empty none

/-- An unrecoverable error with a message only. -/
def fault (message : String) : ServiceError := .unrecoverable message none

/-- The error with a message for a field. -/
def withFieldError (e : ServiceError) (field text : String) : ServiceError :=
  match e with
  | .recoverable message fieldErrors replacement =>
    .recoverable message (fieldErrors.insert field text) replacement
  | .unrecoverable message cause => .unrecoverable message cause

/-- The error with a snapshot to show. -/
def withReplacement (e : ServiceError) (s : Snapshot) : ServiceError :=
  match e with
  | .recoverable message fieldErrors _ => .recoverable message fieldErrors (some s)
  | .unrecoverable message cause => .unrecoverable message cause

/-- The error with a cause. -/
def withCause (e : ServiceError) (text : String) : ServiceError :=
  match e with
  | .recoverable message fieldErrors replacement => .recoverable message fieldErrors replacement
  | .unrecoverable message _ => .unrecoverable message (some text)

def isRecoverable : ServiceError → Bool
  | .recoverable .. => true
  | .unrecoverable .. => false

/-- The message that is shown. -/
def message : ServiceError → String
  | .recoverable message _ _ => message
  | .unrecoverable message _ => message

end ServiceError

end Stepwise
