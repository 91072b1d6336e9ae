/-
# The services of the scripted server

The scripted server offers every service.

* `Server.services` : its services, with the time at which users log in.
-/
import Stepwise.Server.Account
import Stepwise.Server.Execution
import Stepwise.Service.Basic

namespace Stepwise.Server

/-- The services of a scripted server. Logging out is always accepted. -/
def services (now : Timestamp) : Services Server where
  execute? := some fun request server => server.run (execute request)
  authentication? := some
    { login := fun c server => (server.login now c, server)
      logout := fun _ server => (.ok (), server) }
  storage? := some
    { get := fun key server => (.ok (server.stored? key), server)
      put := fun key value server => (.ok (), server.store key value) }

end Stepwise.Server
