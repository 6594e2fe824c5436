import ProxySet.Redsocks.EventCore

/-!
One `redsocks_instance` with all its clients.  The callbacks of its clients run in
any order, and those of the HTTP subsystems share the `http_auth` behind it.
-/

namespace ProxySet

/-- `asker` is the client that has counted `last_auth_count` up last; no function of the program
reads it. -/
structure Instance where
  config : Config
  subsys : Subsys
  auth : HttpAuth
  clients : List Client
  asker : Option Nat
deriving DecidableEq, Repr

def redsocksInstance (config : Config) (subsys : Subsys) : Instance :=
  { config := config
    subsys := subsys
    auth := { lastAuthQuery := none, lastAuthCount := 0 }
    clients := []
    asker := none }

@[simps]
def Instance.world (inst : Instance) (client : Client) : World :=
  { config := inst.config, auth := inst.auth, client := client }

@[simps]
def Instance.update (inst : Instance) (index : Nat) (world : World) : Instance :=
  { inst with
    auth := world.auth
    clients := inst.clients.set index world.client
    asker :=
      if world.auth.lastAuthCount = inst.auth.lastAuthCount + 1 then some index else inst.asker }

inductive InstanceEvent where
  | accept (env : Env) (address : SockaddrIn)
  | client (index : Nat) (event : Event)

/-- What other clients do is a step of their own here. -/
def Event.isOthers : Event → Bool
  | .others _ => true
  | _ => false

def instanceStep (inst : Instance) : InstanceEvent → Option Instance
  | .accept env address =>
      some { inst with
        clients := inst.clients ++ [redsocksAcceptClient env inst.config inst.subsys address] }
  | .client index event =>
      if event.isOthers then none
      else inst.clients[index]?.bind fun client =>
        (step (inst.world client) event).map (inst.update index)

end ProxySet
