import Mathlib.Tactic.Simps.Basic
import ProxySet.Redsocks.BuffereventCore

/-!
`redsocks_client` and the functions of `redsocks.c` that work on one client.
The trace lists the calls that matter to the outside, newest first; a call
carries what the theorems about it say of the moment it was made.
-/

namespace ProxySet

def redsocksRelayHalfbuff : Nat := 4096

inductive Side where
  | client
  | relay
deriving DecidableEq, Repr

def Side.other : Side → Side
  | .client => .relay
  | .relay => .client

inductive How where
  | rd
  | wr
  | rdwr
deriving DecidableEq, Repr

def How.events : How → EvBits
  | .rd => EvBits.evRead
  | .wr => EvBits.evWrite
  | .rdwr => EvBits.both

/-- The values of `what` that socket bufferevents without timeouts report. -/
inductive What where
  | readEof
  | readError
  | writeEof
  | writeError
deriving DecidableEq, Repr

inductive Subsys where
  | httpConnect
  | httpRelay
  | socks4
  | socks5
deriving DecidableEq, Repr

inductive Socks4State where
  | new
  | requestSent
  | replyCame
deriving DecidableEq, Repr

inductive Socks5State where
  | new
  | methodSent
  | authSent
  | requestSent
  | skipDomain
  | skipAddress
deriving DecidableEq, Repr

inductive HttpcState where
  | new
  | requestSent
  | replyCame
  | headersSkipped
deriving DecidableEq, Repr

inductive HttprState where
  | new
  | recvRequestHeaders
  | requestSent
  | replyCame
  | headersSkipped
deriving DecidableEq, Repr

/-- `client->state`: a state of the client's own subsystem, or `pump_active`. -/
inductive State where
  | socks4 (state : Socks4State)
  | socks5 (state : Socks5State)
  | httpc (state : HttpcState)
  | httpr (state : HttprState)
  | pumpActive
deriving DecidableEq, Repr

/-- An IPv4 address and a port; the bytes of `sin_addr` stand in network order. -/
structure SockaddrIn where
  a : UInt8
  b : UInt8
  c : UInt8
  d : UInt8
  port : UInt16
deriving DecidableEq, Repr

structure Socks5Client where
  doPassword : Bool
  toSkip : Nat
deriving DecidableEq, Repr

structure HttprClient where
  firstline : Option Bytes
  host : Option Bytes
  hasHost : Bool
  clientBuffer : Bytes
  relayBuffer : Bytes
deriving DecidableEq, Repr

/-- The library calls of one callback whose failure the program handles. -/
inductive Site where
  | mkmessage
  | writeBuffer
  | startEnableClient
  | startEnableRelay
  | acceptEnable
  | connectRelay
  | connected
  | httprEnable
  | httprReplyWrite
  | httprFirstline
  | httprAuth
  | httprHeaders
  | httprToss
  | httprAppend
  | contentAlloc
  | contentRemove
  | contentWrite
deriving DecidableEq, Repr

/-- What the surroundings decide during one callback: which calls fail, and the random words. -/
structure Env where
  fails : Site → Bool
  random : UInt32 × UInt32

def Env.ok : Env := { fails := fun _ => false, random := (0, 0) }

inductive LogMsg where
  | droppingClient
  | startEnableFailed
  | bothDisconnected
  | socketError (side : Side) (what : What)
  | shortRead
  | writeBufferFailed
  | notConnected
  | connectRelayFailed
  | acceptEnableFailed
  | socks4Version
  | socks4Status (status : UInt8)
  | socks5Method (error : String)
  | socks5AuthVersion
  | socks5ReplyVersion
  | socks5AddressType
  | socks5Status (status : UInt8)
  | proxyAuthFailed
  | noLogin
  | noChallenge
  | unexpectedReply (line : Bytes)
  | httprReplyWrite
  | httprWrite
  | malformedRequest
  | tossFirstline
  | outOfMemory
  | evbufferRemove
  | contentWrite
deriving DecidableEq, Repr

def LogMsg.text : LogMsg → String
  | .droppingClient => "dropping client"
  | .startEnableFailed => "bufferevent_enable"
  | .bothDisconnected => "both client and server disconnected"
  | .socketError _ _ => "%s %serror, code %s|%s|%s|%s|%s|0x%x"
  | .shortRead => "Can't get expected amount of data"
  | .writeBufferFailed => "bufferevent_write_buffer"
  | .notConnected => "red_is_socket_connected_ok"
  | .connectRelayFailed => "red_connect_relay"
  | .acceptEnableFailed => "bufferevent_enable"
  | .socks4Version => "Socks4 server reported unexpected reply version..."
  | .socks4Status _ => "Socks4 server status: %s (%i)"
  | .socks5Method _ => "socks5_is_known_auth_method: %s"
  | .socks5AuthVersion => "Socks5 server reported unexpected auth reply version..."
  | .socks5ReplyVersion => "Socks5 server reported unexpected reply version..."
  | .socks5AddressType => "Socks5 server reported unexpected address type..."
  | .socks5Status _ => "Socks5 server status: %s (%i)"
  | .proxyAuthFailed => "proxy auth failed"
  | .noLogin => "proxy auth required, but no login information provided"
  | .noChallenge => "403 found, but no proxy auth challenge"
  | .unexpectedReply _ => "%s"
  | .httprReplyWrite => "bufferevent_write"
  | .httprWrite => "bufferevent_write"
  | .malformedRequest => "malformed request came"
  | .tossFirstline => "httpr_toss_http_firstline"
  | .outOfMemory => "run out of memory"
  | .evbufferRemove => "evbuffer_remove"
  | .contentWrite => "bufferevent_write"

/-- `shutdown` records whether the other side has reported EOF, the other side's input and this
side's output; `enable` and `connectRelay` record the side's `evshut` word; `request` records the
credentials put into the request and the stored challenge. -/
inductive Call where
  | enable (side : Side) (events shut : EvBits)
  | shutdown (side : Side) (how : How) (eof : Bool) (pending output : Bytes)
  | relayWritecb (target : Side)
  | startRelay
  | drop
  | closeRelay
  | connectRelay (shut : EvBits)
  | request (credentials challenge : Option Bytes)
  | log (message : LogMsg)
  | assertFailed
deriving DecidableEq, Repr

structure Client where
  subsys : Subsys
  client : Bufferevent
  relay : Bufferevent
  relayOpen : Bool
  destaddr : SockaddrIn
  state : State
  clientEvshut : EvBits
  relayEvshut : EvBits
  socks5 : Socks5Client
  httpr : HttprClient
  dropped : Bool
  trace : List Call
deriving DecidableEq, Repr

namespace Client

def buf (client : Client) : Side → Bufferevent
  | .client => client.client
  | .relay => client.relay

@[simps subsys relayOpen destaddr state clientEvshut relayEvshut socks5 httpr dropped trace]
def setBuf (client : Client) (side : Side) (buffer : Bufferevent) : Client :=
  { client with
    client := match side with
      | .client => buffer
      | .relay => client.client
    relay := match side with
      | .client => client.relay
      | .relay => buffer }

def modify (client : Client) (side : Side) (change : Bufferevent → Bufferevent) : Client :=
  client.setBuf side (change (client.buf side))

def evshut (client : Client) : Side → EvBits
  | .client => client.clientEvshut
  | .relay => client.relayEvshut

@[simps subsys client relay relayOpen destaddr state socks5 httpr dropped trace]
def setEvshut (client : Client) (side : Side) (bits : EvBits) : Client :=
  { client with
    clientEvshut := match side with
      | .client => bits
      | .relay => client.clientEvshut
    relayEvshut := match side with
      | .client => client.relayEvshut
      | .relay => bits }

def isOpen (client : Client) : Side → Bool
  | .client => true
  | .relay => client.relayOpen

@[simps]
def call (client : Client) (entry : Call) : Client :=
  { client with trace := entry :: client.trace }

def log (client : Client) (message : LogMsg) : Client :=
  client.call (.log message)

def enable (client : Client) (side : Side) (events : EvBits) : Client :=
  (client.call (.enable side events (client.evshut side))).modify side (·.enable events)

def disable (client : Client) (side : Side) (events : EvBits) : Client :=
  client.modify side (·.disable events)

def writeBuffer (client : Client) (source target : Side) : Client :=
  (client.modify target (·.write (client.buf source).input)).modify source
    (fun buffer => { buffer with input := [] })

def assertFail (client : Client) : Client :=
  client.call .assertFailed

/-- `relay_ss->fini`: only http-relay has one. -/
@[simps subsys client relay relayOpen destaddr state clientEvshut relayEvshut socks5 dropped trace]
def fini (client : Client) : Client :=
  { client with
    httpr := match client.subsys with
      | .httpRelay =>
          { client.httpr with firstline := none, host := none, clientBuffer := [], relayBuffer := [] }
      | _ => client.httpr }

end Client

@[simps subsys client relay relayOpen destaddr state clientEvshut relayEvshut socks5 dropped trace]
def redsocksDropClient (client : Client) : Client :=
  { (client.log .droppingClient).fini.call .drop with dropped := true }

/-- The call of `shutdown(2)`; a side that is SHUT_WR already only confirms its EOF. -/
@[simps]
def Client.callShutdown (client : Client) (side : Side) (how : How) : Client :=
  { client with
    trace :=
      if how = .rd ∧ (client.evshut side).write then client.trace
      else .shutdown side how (client.evshut side.other).read (client.buf side.other).input
        (client.buf side).output :: client.trace }

def Client.bothShut (client : Client) : Bool :=
  client.relayEvshut == EvBits.both && client.clientEvshut == EvBits.both

def redsocksShutdown (client : Client) (side : Side) (how : How) : Client :=
  let called := client.callShutdown side how
  let closed := (called.disable side how.events).setEvshut side
    ((called.evshut side).union how.events)
  if closed.bothShut then redsocksDropClient (closed.log .bothDisconnected) else closed

def redsocksEventError (client : Client) (side : Side) (what : What) : Client :=
  if what = .readEof then
    let ended := redsocksShutdown client side .rd
    -- While the relay is activating, the write pipe stays open.
    if ended.state = .pumpActive ∧ ended.isOpen side.other ∧
        (ended.buf side.other).output.length = 0 then
      redsocksShutdown ended side.other .wr
    else ended
  else redsocksDropClient (client.log (.socketError side what))

def redsocksRelayReadcb (client : Client) (source target : Side) : Client :=
  if (client.buf target).output.length < (client.buf target).wmWrite.high then
    client.writeBuffer source target
  else if (client.buf source).enabled.read then client.disable source EvBits.evRead
  else client

def redsocksRelayWritecb (client : Client) (source target : Side) : Client :=
  let entered := client.call (.relayWritecb target)
  let sourceEof := (entered.evshut source).read
  if (entered.buf source).input.length = 0 ∧ sourceEof then
    redsocksShutdown entered target .wr
  else if (entered.buf target).output.length < (entered.buf target).wmWrite.high then
    let moved := entered.writeBuffer source target
    if !sourceEof && !(moved.buf source).enabled.read then moved.enable source EvBits.evRead
    else moved
  else entered

def redsocksStartRelay (env : Env) (client : Client) : Client :=
  let pump := fun buffer : Bufferevent =>
    { buffer.setwatermark EvBits.both 0 redsocksRelayHalfbuff with
      readcb := .pump, writecb := .pump }
  let started := (({ client.fini with state := .pumpActive }.call .startRelay).modify .client
    pump).modify .relay pump
  let clientOn := started.enable .client (EvBits.both.without started.clientEvshut)
  if env.fails .startEnableClient then redsocksDropClient (clientOn.log .startEnableFailed)
  else
    let relayOn := clientOn.enable .relay (EvBits.both.without clientOn.relayEvshut)
    if env.fails .startEnableRelay then redsocksDropClient (relayOn.log .startEnableFailed)
    else relayOn

def sizesEqual (left right : Nat) : Bool := left == right

def sizesGreaterEqual (left right : Nat) : Bool := decide (right ≤ left)

/-- Takes `expected` bytes from the relay's input, or drops the client. -/
def redsocksReadExpected (client : Client) (comparator : Nat → Nat → Bool) (expected : Nat) :
    Option Bytes × Client :=
  if comparator client.relay.input.length expected then
    (some (client.relay.input.take expected),
      client.modify .relay fun buffer => { buffer with input := buffer.input.drop expected })
  else (none, redsocksDropClient (client.log .shortRead))

/-- The `mkmessage` argument: `NULL`, a maker that returned `NULL`, or the message made. -/
inductive Message where
  | noMaker
  | failed
  | made (data : Bytes)
deriving DecidableEq, Repr

def Message.make (env : Env) (data : Bytes) : Message :=
  if env.fails .mkmessage then .failed else .made data

/-- The tail of `redsocks_write_helper_ex_plain`, after the message has been written. -/
def redsocksWriteHelperWait (client : Client) (state : State) (wmLow wmHigh : Nat) : Client :=
  (({ client with state := state }).modify .relay
    (·.setwatermark EvBits.evRead wmLow wmHigh)).enable .relay EvBits.evRead

def redsocksWriteHelperEx (env : Env) (client : Client) (message : Message) (state : State)
    (wmLow wmHigh : Nat) : Client :=
  match message with
  | .noMaker => redsocksWriteHelperWait client state wmLow wmHigh
  | .failed => redsocksDropClient client
  | .made data =>
      if env.fails .writeBuffer then redsocksDropClient (client.log .writeBufferFailed)
      else redsocksWriteHelperWait (client.modify .relay (·.write data)) state wmLow wmHigh

def redsocksWriteHelper (env : Env) (client : Client) (message : Message) (state : State)
    (wmOnly : Nat) : Client :=
  redsocksWriteHelperEx env client message state wmOnly wmOnly

def redConnectRelay : Bufferevent :=
  (Bufferevent.new .none .connected).enable EvBits.evWrite

def redsocksConnectRelay (env : Env) (client : Client) : Client :=
  if env.fails .connectRelay then
    redsocksDropClient
      ({ client with relay := Bufferevent.null, relayOpen := false }.log .connectRelayFailed)
  else
    { client.call (.connectRelay client.relayEvshut) with
      relay := redConnectRelay, relayOpen := true }

end ProxySet
