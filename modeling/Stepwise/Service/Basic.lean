/-
# Services

A server as the shell sees it: the services that it offers, as functions on the states `σ` of
the server. A server may offer any of them; what it does not offer is simply absent.

* `Authentication`, `Storage`, `Services` : the services;
* `Services.capabilities` : what is offered.
-/
import Stepwise.Process.Account
import Stepwise.Process.Request
import Stepwise.Process.ServiceError
import Stepwise.Service.Capability

namespace Stepwise

/-- A call to a server: its result and the server after it. -/
abbrev Service (σ α : Type) := σ → Except ServiceError α × σ

/-- Logging in and out. -/
structure Authentication (σ : Type) where
  login : Credentials → Service σ User
  logout : String → Service σ Unit

/-- A text for each key. -/
structure Storage (σ : Type) where
  get : String → Service σ (Option String)
  put : String → String → Service σ Unit

/-- What a server offers. -/
structure Services (σ : Type) where
  execute? : Option (Request → Service σ Snapshot)
  authentication? : Option (Authentication σ)
  storage? : Option (Storage σ)

namespace Services

variable {σ : Type}

/-- A server that offers nothing. -/
def none : Services σ := ⟨.none, .none, .none⟩

/-- The capability is offered. -/
def provides (services : Services σ) : Capability → Bool
  | .commandExecution => services.execute?.isSome
  | .authentication => services.authentication?.isSome
  | .storage => services.storage?.isSome

/-- All that is offered. -/
def capabilities (services : Services σ) : List Capability :=
  Capability.all.filter services.provides

end Services

end Stepwise
