/-
# The scripted server

A server that follows scripts, for demonstrations and tests. It keeps an instance for every
process that runs: the script, the number of the current step and the values that were
submitted. An instance may have been spawned by a step of another one.

* `Instance` : a process that runs;
* `Server` : the scripts, the instances, and what else a server remembers;
* `Server.Run` : a computation on the server; what it did before an error stays done.
-/
import Stepwise.Process.Request
import Stepwise.Process.Script
import Stepwise.Process.ServiceError

namespace Stepwise

/-- A process that runs. -/
structure Instance where
  id : Uuid
  script : Script
  /-- The number of the current step. -/
  index : Nat
  values : KeyMap Value
  /-- The process whose step spawned this one. -/
  parent : Option Uuid
  /-- The number of processes above this one. -/
  depth : Nat
  /-- The numbers of the steps that were entered; these spawn no more. -/
  entered : List Nat

/-- A server that follows scripts. -/
structure Server where
  /-- The scripts by the names of their processes. -/
  scripts : KeyMap Script
  passwords : KeyMap String
  /-- The processes that run. -/
  instances : List Instance
  /-- No two processes have the same identifier. -/
  distinct : (instances.map (·.id)).Nodup := by simp
  storage : KeyMap String
  /-- The errors with which the next requests fail. -/
  injected : List ServiceError
  /-- The modes of all requests so far. -/
  executed : List Mode
  /-- How many identifiers were given to processes. -/
  issued : Nat

namespace Server

/-- A server without instances. Of several scripts with one name the last counts. -/
def ofScripts (scripts : List Script) : Server where
  scripts := .ofList (scripts.map fun s => (s.name, s))
  passwords := .empty
  instances := []
  storage := .empty
  injected := []
  executed := []
  issued := 0

/-- The server that requires a password of a user. -/
def withUser (server : Server) (user password : String) : Server :=
  { server with passwords := server.passwords.insert user password }

/-- The names of the scripted processes, in ascending order. -/
def processNames (server : Server) : List String := server.scripts.keys

/-- The instance with an identifier. -/
def instance? (server : Server) (id : Uuid) : Option Instance :=
  server.instances.find? (·.id = id)

/-- The next request fails with an error, after those that were told to fail before. -/
def failNext (server : Server) (e : ServiceError) : Server :=
  { server with injected := server.injected ++ [e] }

/-- A computation on the server. -/
abbrev Run (α : Type) := ExceptT ServiceError (StateM Server) α

/-- Carries out a computation; gives its result and the server after it. -/
def run {α : Type} (server : Server) (act : Run α) : Except ServiceError α × Server :=
  StateT.run (ExceptT.run act) server

/-- The instance is the one with an identifier or was spawned by it, directly or through at most
`links` others. -/
def isWithin (instances : List Instance) (id : Uuid) : Nat → Instance → Bool
  | 0, p => p.id = id
  | links + 1, p =>
    p.id = id ||
      (p.parent.bind fun parent => instances.find? (·.id = parent)).any
        (isWithin instances id links)

/-- The server without an instance and all that it spawned, directly or through others. -/
def remove (server : Server) (id : Uuid) : Server :=
  let within := isWithin server.instances id server.instances.length
  { server with
    instances := server.instances.filter fun p => !within p
    distinct := server.distinct.sublist (List.filter_sublist.map _) }

/-- The server with an instance, in place of the one with the same identifier. -/
def keep (server : Server) (p : Instance) : Server :=
  { server with
    instances := p :: server.instances.filter (·.id ≠ p.id)
    distinct := by
      rw [List.map_cons, List.nodup_cons]
      exact ⟨by simp, server.distinct.sublist (List.filter_sublist.map _)⟩ }

end Server

end Stepwise
