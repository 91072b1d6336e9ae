/-
# Trees of clients

A client holds the clients of the child processes that run. An operation is addressed to one
client of the tree by name; a response reaches the client that sent the request, and on the
way back every holder lets go of a client whose process is over.

* `Client.members`, `Client.find?`, `Client.contains` : the clients of a tree;
* `Client.actAt` : a step of the addressed client, as a change of the whole tree;
* `Client.operate?` : an operation of the user on the addressed client;
* `Act.route` : a response for the addressed client.
-/
import Stepwise.Client.Operation
import Stepwise.Client.Response

namespace Stepwise

namespace Client

variable {V α : Type}

mutual
/-- The client and all below it, every client before its children. -/
def members : Client V → List (Client V)
  | ⟨own, children⟩ => ⟨own, children⟩ :: membersOfAll children
/-- The clients of several trees. -/
def membersOfAll : List (Client V) → List (Client V)
  | [] => []
  | c :: rest => c.members ++ membersOfAll rest
end

/-- The client of the tree that has a name. -/
def find? (c : Client V) (id : ClientId) : Option (Client V) := c.members.find? (·.id = id)

/-- The tree has a client with the name. -/
def contains (c : Client V) (id : ClientId) : Bool := c.members.any (·.id = id)

mutual
/-- Lets the first client with a name take a step; none if there is no such client. Of the clients
on the way down to it, only those stay in the tree that are to be kept after the step. -/
def actAt (id : ClientId) (keep : Client V → Bool) (act : Act V α) (ch : Channels) :
    Client V → Option (Turn V α)
  | ⟨own, children⟩ =>
    if own.id = id then some (act.run ch ⟨own, children⟩)
    else (actAtAny id keep act ch children).map fun (result, rest, effects) =>
      ⟨result, ⟨own, rest⟩, effects⟩
/-- Lets the first client with a name take a step, in the first of several trees that has it. -/
def actAtAny (id : ClientId) (keep : Client V → Bool) (act : Act V α) (ch : Channels) :
    List (Client V) → Option (Except ClientError α × List (Client V) × List Effect)
  | [] => none
  | c :: rest =>
    match actAt id keep act ch c with
    | some t => some (t.result, if keep t.client then t.client :: rest else rest, t.effects)
    | none => (actAtAny id keep act ch rest).map fun (result, others, effects) =>
      (result, c :: others, effects)
end

/-- Lets the client with a name take a step of its user; none if there is no such client. -/
def operate? (c : Client V) (id : ClientId) (act : Act V α) (ch : Channels) : Option (Turn V α) :=
  c.actAt id (fun _ => true) act ch

end Client

namespace Act

variable {V : Type} [ProcessView V]

/-- Takes the outcome of a request of the client with a name. A client whose process is over leaves
the tree. -/
def route (id : ClientId) (result : Except ServiceError Snapshot) : Act V Unit := fun ch c =>
  (c.actAt id (fun c => !c.phase.isTerminal) (respond result) ch).getD
    ⟨.error (.unknownClient id), c, []⟩

end Act

end Stepwise
