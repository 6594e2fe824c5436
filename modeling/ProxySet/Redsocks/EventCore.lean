import ProxySet.Redsocks.HttpConnectCore
import ProxySet.Redsocks.HttpRelayCore

/-!
The callbacks libevent runs for one client, as a partial step function: an event
that libevent would not report in a state has no step there, and neither has one
whose callback does not return.
-/

namespace ProxySet

def relaySsReadcb (env : Env) (world : World) : World :=
  match world.client.subsys with
  | .httpConnect => httpcReadCb env world
  | .httpRelay => httprRelayReadCb env world
  | .socks4 => world.withClient (socks4ReadCb env world.client)
  | .socks5 => world.withClient (socks5ReadCb env world.config world.client)

def relaySsWritecb (env : Env) (world : World) : World :=
  match world.client.subsys with
  | .httpConnect => httpcWriteCb env world
  | .httpRelay => httprRelayWriteCb env world
  | .socks4 => world.withClient (socks4WriteCb env world.config world.client)
  | .socks5 => world.withClient (socks5WriteCb env world.client)

def redsocksRelayConnected (env : Env) (world : World) : World :=
  if env.fails .connected then
    world.withClient (redsocksDropClient (world.client.log .notConnected))
  else
    relaySsWritecb env (world.withClient (world.client.modify .relay
      fun buffer => { buffer with readcb := .subsys, writecb := .subsys }))

def runReadcb (env : Env) (world : World) (side : Side) : World :=
  match (world.client.buf side).readcb with
  | .none => world
  | .subsys => relaySsReadcb env world
  | .httprClient => world.withClient (httprClientReadCb env world.client)
  | .pump => world.withClient (redsocksRelayReadcb world.client side side.other)

def runWritecb (env : Env) (world : World) (side : Side) : World :=
  match (world.client.buf side).writecb with
  | .none => world
  | .connected => redsocksRelayConnected env world
  | .subsys => relaySsWritecb env world
  | .pump => world.withClient (redsocksRelayWritecb world.client side.other side)

/-- `others` stands for callbacks of other clients, which share the instance's `http_auth`. -/
inductive Event where
  | readData (side : Side) (chunk : Bytes) (env : Env)
  | writeReady (side : Side) (count : Nat) (env : Env)
  | report (side : Side) (what : What)
  | others (auth : HttpAuth)

/-- Reading can fail or end while the read event is in the loop, writing while there is output. -/
def reports (buffer : Bufferevent) : What → Bool
  | .readEof | .readError => buffer.canRead
  | .writeEof | .writeError => buffer.evWrite && !buffer.output.isEmpty

/-- The direction `bufferevent_readcb` or `bufferevent_writecb` disables before it reports. -/
def What.events : What → EvBits
  | .readEof | .readError => EvBits.evRead
  | .writeEof | .writeError => EvBits.evWrite

/-- `httpr_buffer_append` ends while the string is shorter than this; then its room overflows. -/
def httprBufferRoom : Nat := 2 ^ 30

/-- The callback that reads the request would have gone on appending to a string without room, so
it does not return. -/
def endless (installed : ReadCb) (client : Client) : Bool :=
  installed == .httprClient && !client.dropped &&
    (decide (httprBufferRoom ≤ client.httpr.clientBuffer.length) ||
      client.state != .httpr .new &&
        decide (httprBufferRoom ≤ (client.httpr.firstline.getD []).length))

def step (world : World) (event : Event) : Option World :=
  if world.client.dropped then none
  else match event with
    | .readData side chunk env =>
        let buffer := world.client.buf side
        if buffer.canRead && buffer.fits chunk then
          let read := world.withClient (world.client.setBuf side (buffer.receive chunk))
          if buffer.wmRead.low ≤ (buffer.receive chunk).input.length then
            let ran := runReadcb env read side
            if endless buffer.readcb ran.client then none else some ran
          else some read
        else none
    | .writeReady side count env =>
        let buffer := world.client.buf side
        if buffer.evWrite && buffer.mayTransmit count then
          let sent := world.withClient (world.client.setBuf side (buffer.transmit count))
          if (buffer.transmit count).output.length ≤ buffer.wmWrite.low then
            some (runWritecb env sent side)
          else some sent
        else none
    | .report side what =>
        if reports (world.client.buf side) what then
          some (world.withClient
            (redsocksEventError (world.client.disable side what.events) side what))
        else none
    | .others auth => some { world with auth := auth }

@[simp] theorem endless_subsys (client : Client) : endless .subsys client = false := rfl

@[simp] theorem endless_pump (client : Client) : endless .pump client = false := rfl

theorem returned {Outcome : Type} {stuck : Bool} {ran next : Outcome}
    (taken : (if stuck then none else some ran) = some next) : ran = next :=
  Option.some.inj (Option.ite_none_left_eq_some.mp taken).2

def initialState : Subsys → State
  | .httpConnect => .httpc .new
  | .httpRelay => .httpr .new
  | .socks4 => .socks4 .new
  | .socks5 => .socks5 .new

def newClient (config : Config) (subsys : Subsys) (address : SockaddrIn) : Client :=
  { subsys := subsys
    client := Bufferevent.new .none .none
    relay := Bufferevent.null
    relayOpen := false
    destaddr := address
    state := initialState subsys
    clientEvshut := EvBits.none
    relayEvshut := EvBits.none
    socks5 := { doPassword := socks5IsValidCred config.login config.password, toSkip := 0 }
    httpr := {
      firstline := none, host := none, hasHost := false, clientBuffer := [], relayBuffer := [] }
    dropped := false
    trace := [] }

/-- `redsocks_accept_client` from the point where the client has been put on the list. -/
def redsocksAcceptClient (env : Env) (config : Config) (subsys : Subsys) (address : SockaddrIn) :
    Client :=
  let reading := (newClient config subsys address).enable .client EvBits.evRead
  if env.fails .acceptEnable then redsocksDropClient (reading.log .acceptEnableFailed)
  else match subsys with
    | .httpRelay => httprConnectRelay env reading
    | _ => redsocksConnectRelay env reading

@[simps]
def acceptedWorld (env : Env) (config : Config) (auth : HttpAuth) (subsys : Subsys)
    (address : SockaddrIn) : World :=
  { config := config, auth := auth, client := redsocksAcceptClient env config subsys address }

def plainWorld (subsys : Subsys) : World :=
  acceptedWorld Env.ok { login := none, password := none } { lastAuthQuery := none, lastAuthCount := 0 }
    subsys { a := 10, b := 0, c := 0, d := 1, port := 80 }

end ProxySet
