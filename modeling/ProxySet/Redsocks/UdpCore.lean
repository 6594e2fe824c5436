import Mathlib.Logic.Function.Basic
import ProxySet.Lib.LifeLog
import ProxySet.Lib.StepRun
import ProxySet.Redsocks.SocksCore

/-!
`redudp.c`: an instance that sends the datagrams it gets through a SOCKS5 association, one for
each source address.  A step is one callback of the event loop, with the outcome of the calls
in it that can fail.
-/

namespace ProxySet.Redudp

open LifeLog StepRun

structure UdpConfig where
  destaddr : SockaddrIn
  login : Option Bytes
  password : Option Bytes
  maxPktqueue : Nat

def doTproxy (config : UdpConfig) : Bool :=
  config.destaddr.addrBytes == [0, 0, 0, 0]

structure EnqueuedPacket where
  data : Bytes
  /-- The destination that the datagram had, which is not in the source. -/
  origin : Option SockaddrIn
  deriving DecidableEq

inductive Readcb where
  | authMethods
  | authReply
  | assocReply
  deriving DecidableEq

/-- A client; `id` stands for its place in memory, and of an event or a `bufferevent` the
descriptor is kept. -/
structure UdpClient where
  id : Nat
  clientaddr : SockaddrIn
  destaddr : SockaddrIn
  senderFd : Option Nat
  relay : Option Nat
  /-- `writecb` is still `redudp_relay_connected`. -/
  connecting : Bool
  readcb : Option Readcb
  /-- What has been written to the relay. -/
  written : Bytes
  udprelay : Option Nat
  udprelayaddr : SockaddrIn
  queueLen : Nat
  queue : List EnqueuedPacket
  deriving DecidableEq

structure BoundUdp4 where
  ref : Nat
  fd : Nat
  deriving DecidableEq

/-- A message for `sendmsg`, and the destination that its datagram had. -/
structure Forwarded where
  message : Bytes
  origin : Option SockaddrIn
  deriving DecidableEq

/-- A call of `sendto`; without a descriptor it is the listener's. -/
structure Delivered where
  fd : Option Nat
  destination : SockaddrIn
  fwdlen : Int
  data : Bytes
  deriving DecidableEq

inductive Phase where
  | running
  | freed
  /-- A client has been used after its end, so nothing is known any more. -/
  | undefined
  deriving DecidableEq

structure World where
  config : UdpConfig
  clients : List UdpClient
  /-- `root_bound_udp4` as the finite map that the search functions keep. -/
  bound : SockaddrIn → Option BoundUdp4
  nextId : Nat
  nextFd : Nat
  phase : Phase
  forwarded : List Forwarded
  delivered : List Delivered
  /-- What has happened to each client. -/
  history : Nat → List (LifeLog.Event Nat)
  /-- `bound_udp4_put` did not find its key. -/
  putAbsent : Bool
  /-- The descriptors that `bound_udp4_get` has opened, and those closed again. -/
  boundOpened : List Nat
  boundClosed : List Nat

def World.start (config : UdpConfig) : World where
  config := config
  clients := []
  bound := fun _ => none
  nextId := 0
  nextFd := 0
  phase := .running
  forwarded := []
  delivered := []
  history := fun _ => []
  putAbsent := false
  boundOpened := []
  boundClosed := []

def World.notes (world : World) (id : Nat) (events : List (LifeLog.Event Nat)) : World :=
  { world with history := Function.update world.history id (world.history id ++ events) }

/-! ### Bound sockets -/

/-- How a socket is opened and bound to a destination. -/
inductive Binding where
  /-- `calloc` or `socket` fails. -/
  | noSocket
  /-- `redudp_transparent`, `bind` or `tsearch` fails. -/
  | closes
  | binds
  deriving DecidableEq

def boundUdp4Get (world : World) (addr : SockaddrIn) (binding : Binding) : World × Option Nat :=
  match world.bound addr with
  | some node =>
      ({ world with bound := Function.update world.bound addr (some { node with ref := node.ref + 1 }) },
        some node.fd)
  | none =>
      let fd := world.nextFd
      match binding with
      | .noSocket => (world, none)
      | .closes =>
          ({ world with
              nextFd := fd + 1
              boundOpened := world.boundOpened ++ [fd]
              boundClosed := world.boundClosed ++ [fd] }, none)
      | .binds =>
          ({ world with
              nextFd := fd + 1
              boundOpened := world.boundOpened ++ [fd]
              bound := Function.update world.bound addr (some ⟨1, fd⟩) }, some fd)

def boundUdp4Put (world : World) (addr : SockaddrIn) : World :=
  match world.bound addr with
  | none => { world with putAbsent := true }
  | some node =>
      if node.ref - 1 ≠ 0 then
        { world with bound := Function.update world.bound addr (some { node with ref := node.ref - 1 }) }
      else
        { world with
          bound := Function.update world.bound addr none
          boundClosed := world.boundClosed ++ [node.fd] }

/-! ### Clients -/

def getDestaddr (config : UdpConfig) (client : UdpClient) : SockaddrIn :=
  if doTproxy config then client.destaddr else config.destaddr

def redudpFillPreamble (config : UdpConfig) (client : UdpClient) : Bytes :=
  [0, 0, 0, 1] ++ (getDestaddr config client).addrBytes ++ (getDestaddr config client).portBytes

def socks5Mkassociate : Bytes :=
  socks5MkcommandPlain 3 ⟨0, 0, 0, 0, 0⟩

def UdpClient.closes (client : UdpClient) : List Nat :=
  client.relay.toList ++ client.udprelay.toList

def redudpDropClient (world : World) (client : UdpClient) : World :=
  let put :=
    match client.senderFd with
    | some _ => boundUdp4Put world client.destaddr
    | none => world
  { put.notes client.id (.used :: client.closes.map .closed ++ [.dropped]) with
    clients := world.clients.filter (·.id ≠ client.id) }

/-- How a callback is done with its client. -/
inductive Ending where
  | kept
  | dropped
  /-- `redudp_bump_timeout` has dropped the client, which the callback goes on to use. -/
  | lost
  deriving DecidableEq

structure Verdict where
  client : UdpClient
  events : List (LifeLog.Event Nat)
  forwarded : List Forwarded
  ending : Ending

namespace Verdict

def keep (client : UdpClient) (events : List (LifeLog.Event Nat)) (forwarded : List Forwarded) :
    Verdict :=
  ⟨client, events, forwarded, .kept⟩

def drop (client : UdpClient) (events : List (LifeLog.Event Nat)) : Verdict :=
  ⟨client, events, [], .dropped⟩

def lose (client : UdpClient) (events : List (LifeLog.Event Nat)) : Verdict :=
  ⟨client, events, [], .lost⟩

end Verdict

def World.settle (world : World) (verdict : Verdict) (kept : List UdpClient) : World :=
  let noted :=
    { world.notes verdict.client.id verdict.events with
      nextFd := world.nextFd + 1
      forwarded := world.forwarded ++ verdict.forwarded }
  match verdict.ending with
  | .kept => { noted with clients := kept }
  | .dropped => redudpDropClient noted verdict.client
  | .lost =>
      { (redudpDropClient noted verdict.client).notes verdict.client.id [.used] with
        phase := .undefined }

def World.replaced (world : World) (client : UdpClient) : List UdpClient :=
  world.clients.map fun other => if other.id = client.id then client else other

def redudpForwardPkt (config : UdpConfig) (client : UdpClient) (packet : EnqueuedPacket) : Forwarded :=
  ⟨redudpFillPreamble config client ++ packet.data, packet.origin⟩

def redudpEnqeuePkt (config : UdpConfig) (client : UdpClient) (packet : EnqueuedPacket)
    (calloc : Bool) : Option UdpClient :=
  if config.maxPktqueue ≤ client.queueLen then none
  else if calloc then
    some { client with queueLen := client.queueLen + 1, queue := client.queue ++ [packet] }
  else none

/-! ### The association -/

structure RelayCalls where
  /-- `redsocks_write_helper_ex_plain` -/
  write : Bool
  socket : Bool
  connect : Bool
  addEvent : Bool

def UdpClient.write (client : UdpClient) (message : Bytes) (readcb : Readcb) (calls : RelayCalls) :
    Verdict :=
  if calls.write then
    .keep { client with written := client.written ++ message, readcb := some readcb } [.used] []
  else .drop client [.used]

def redudpRelayConnected (config : UdpConfig) (client : UdpClient) (connected : Bool)
    (calls : RelayCalls) : Verdict :=
  if connected then
    ({ client with connecting := false }).write
      (socks5MkmethodsPlain (socks5IsValidCred config.login config.password)) .authMethods calls
  else .drop client [.used]

def redudpReadAuthMethods (config : UdpConfig) (client : UdpClient) (input : Bytes)
    (calls : RelayCalls) : Verdict :=
  let reply := input.take 2
  let method := reply.getD 1 0
  if reply.length ≠ 2 then .drop client [.used]
  else
    match socks5IsKnownAuthMethod (reply.getD 0 0) method
        (socks5IsValidCred config.login config.password) with
    | some _ => .drop client [.used]
    | none =>
        if method = 0 then client.write socks5Mkassociate .assocReply calls
        else if method = 2 then
          client.write (socks5MkpasswordPlain (config.login.getD []) (config.password.getD []))
            .authReply calls
        else .keep client [.used] []

def redudpReadAuthReply (client : UdpClient) (input : Bytes) (calls : RelayCalls) : Verdict :=
  let reply := input.take 2
  if reply.length ≠ 2 then .drop client [.used]
  else if reply.getD 0 0 ≠ 1 ∨ reply.getD 1 0 ≠ 0 then .drop client [.used]
  else client.write socks5Mkassociate .assocReply calls

/-- A whole reply of the right version and status, with an address that can be used. -/
def isAssocReply (reply : Bytes) : Bool :=
  reply.length == 10 && reply.getD 0 0 == 5 && reply.getD 1 0 == 0 && reply.getD 3 0 == 1

def replyAddress (reply : Bytes) : SockaddrIn :=
  ⟨reply.getD 4 0, reply.getD 5 0, reply.getD 6 0, reply.getD 7 0,
    (reply.getD 8 0).toUInt16 <<< 8 ||| (reply.getD 9 0).toUInt16⟩

def redudpReadAssocReply (config : UdpConfig) (fd : Nat) (client : UdpClient) (input : Bytes)
    (calls : RelayCalls) : Verdict :=
  let reply := input.take 10
  if isAssocReply reply then
    let client := { client with udprelayaddr := replyAddress reply }
    if calls.socket then
      if calls.connect then
        let client := { client with udprelay := some fd }
        if calls.addEvent then
          -- `redudp_flush_queue`
          .keep { client with queueLen := 0, queue := [] } [.used, .opened fd true]
            (client.queue.map (redudpForwardPkt config client))
        else .drop client [.used, .opened fd true, .closed fd]
      else .drop client [.used, .opened fd true, .closed fd]
    else .drop client [.used]
  else .drop client [.used]

def runReadcb (config : UdpConfig) (fd : Nat) (client : UdpClient) (input : Bytes)
    (calls : RelayCalls) : Readcb → Verdict
  | .authMethods => redudpReadAuthMethods config client input calls
  | .authReply => redudpReadAuthReply client input calls
  | .assocReply => redudpReadAssocReply config fd client input calls

/-! ### Datagrams of clients -/

structure Datagram where
  source : SockaddrIn
  /-- What `IP_ORIGDSTADDR` says, if it is there. -/
  destaddr : Option SockaddrIn
  payload : Bytes

def buflen : Nat := 0xffff

/-- `red_recv_udp_pkt` for the listener does not fail. -/
def Datagram.received (config : UdpConfig) (datagram : Datagram) : Bool :=
  (!doTproxy config || datagram.destaddr.isSome) && decide (datagram.payload.length < buflen)

inductive ConnectRelay where
  | noSocket
  /-- A later call fails. -/
  | closes
  | connects
  deriving DecidableEq

structure ClientCalls where
  callocClient : Bool
  connectRelay : ConnectRelay
  time : Bool
  addTimeout : Bool
  callocPacket : Bool

def Datagram.packet (datagram : Datagram) : EnqueuedPacket :=
  ⟨datagram.payload, datagram.destaddr⟩

def newClient (config : UdpConfig) (id : Nat) (datagram : Datagram) : UdpClient where
  id := id
  clientaddr := datagram.source
  destaddr := if doTproxy config then datagram.destaddr.getD ⟨0, 0, 0, 0, 0⟩ else ⟨0, 0, 0, 0, 0⟩
  senderFd := none
  relay := none
  connecting := false
  readcb := none
  written := []
  udprelay := none
  udprelayaddr := ⟨0, 0, 0, 0, 0⟩
  queueLen := 0
  queue := []

def redudpFirstPktFromClient (config : UdpConfig) (id fd : Nat) (datagram : Datagram)
    (calls : ClientCalls) : Verdict :=
  let client := newClient config id datagram
  match calls.connectRelay with
  | .noSocket => .drop client [.used]
  | .closes => .drop client [.used, .opened fd false, .closed fd]
  | .connects =>
      let client := { client with relay := some fd, connecting := true }
      if calls.time then
        if calls.addTimeout then
          match redudpEnqeuePkt config client datagram.packet calls.callocPacket with
          | some client => .keep client [.used, .opened fd false] []
          | none => .drop client [.used, .opened fd false]
        else .lose client [.used, .opened fd false]
      else .drop client [.used, .opened fd false]

/-- A datagram of a client that is listed. -/
def redudpNextPktFromClient (config : UdpConfig) (client : UdpClient) (datagram : Datagram)
    (calls : ClientCalls) : Verdict :=
  if calls.addTimeout then
    match client.udprelay with
    | some _ => .keep client [.used] [redudpForwardPkt config client datagram.packet]
    | none =>
        .keep ((redudpEnqeuePkt config client datagram.packet calls.callocPacket).getD client)
          [.used] []
  else .lose client [.used]

def redudpPktFromClient (world : World) (datagram : Datagram) (calls : ClientCalls) : World :=
  if datagram.received world.config then
    match world.clients.find? (·.clientaddr = datagram.source) with
    | some client =>
        let verdict := redudpNextPktFromClient world.config client datagram calls
        world.settle verdict (world.replaced verdict.client)
    | none =>
        if calls.callocClient then
          let verdict :=
            redudpFirstPktFromClient world.config world.nextId world.nextFd datagram calls
          { world with nextId := world.nextId + 1 }.settle verdict (verdict.client :: world.clients)
        else world
  else world

/-! ### Datagrams of the relay -/

structure SocksCalls where
  addTimeout : Bool
  binding : Binding

/-- The byte of the buffer at a place; what the datagram does not reach is as it was. -/
def bufferByte (pkt : Bytes) (stale : Nat → UInt8) (index : Nat) : UInt8 :=
  pkt.getD index (stale index)

def bufferBytes (pkt : Bytes) (stale : Nat → UInt8) (from' count : Nat) : Bytes :=
  (List.range' from' count).map (bufferByte pkt stale)

def isExpected (config : UdpConfig) (client : UdpClient) (source : SockaddrIn) (pkt : Bytes)
    (stale : Nat → UInt8) : Bool :=
  source == client.udprelayaddr &&
    bufferByte pkt stale 2 == 0 &&
    bufferByte pkt stale 3 == 1 &&
    bufferBytes pkt stale 8 2 == (getDestaddr config client).portBytes &&
    bufferBytes pkt stale 4 4 == (getDestaddr config client).addrBytes

def World.sendBack (world : World) (client : UdpClient) (pkt : Bytes) : World :=
  { world with
    delivered := world.delivered ++
      [⟨if doTproxy world.config then client.senderFd else none, client.clientaddr,
        pkt.length - 10, pkt.drop 10⟩] }

def redudpPktFromSocks (world : World) (client : UdpClient) (source : SockaddrIn) (pkt : Bytes)
    (stale : Nat → UInt8) (calls : SocksCalls) : World :=
  let entered := world.notes client.id [.used]
  if pkt.length < buflen ∧ isExpected world.config client source pkt stale then
    if calls.addTimeout then
      if doTproxy world.config ∧ client.senderFd = none then
        match boundUdp4Get entered client.destaddr calls.binding with
        | (got, none) => got
        | (got, some fd) =>
            let client := { client with senderFd := some fd }
            { got with clients := got.replaced client }.sendBack client pkt
      else entered.sendBack client pkt
    else world.settle (.lose client [.used]) []
  else entered

/-! ### Steps -/

inductive Label where
  | fromClient (datagram : Datagram) (calls : ClientCalls)
  | relayConnected (id : Nat) (connected : Bool) (calls : RelayCalls)
  | relayRead (id : Nat) (input : Bytes) (calls : RelayCalls)
  | relayError (id : Nat)
  | timeout (id : Nat)
  | fromSocks (id : Nat) (source : SockaddrIn) (pkt : Bytes) (stale : Nat → UInt8)
      (calls : SocksCalls)
  | finiInstance

def World.client? (world : World) (id : Nat) : Option UdpClient :=
  world.clients.find? (·.id = id)

def World.callback (world : World) (verdict : Verdict) : World :=
  world.settle verdict (world.replaced verdict.client)

def clientStep (world : World) (client : UdpClient) : Label → Option World
  | .relayConnected _ connected calls =>
      if client.connecting then
        some (world.callback (redudpRelayConnected world.config client connected calls))
      else none
  | .relayRead _ input calls =>
      client.readcb.map fun readcb =>
        world.callback (runReadcb world.config world.nextFd client input calls readcb)
  | .relayError _ => some (world.callback (.drop client [.used]))
  | .timeout _ => some (world.callback (.drop client [.used]))
  | .fromSocks _ source pkt stale calls =>
      if client.udprelay.isSome then some (redudpPktFromSocks world client source pkt stale calls)
      else none
  | _ => none

def redudpFiniInstance (world : World) : World :=
  { world.clients.foldl redudpDropClient world with phase := .freed }

def Label.id? : Label → Option Nat
  | .relayConnected id _ _ => some id
  | .relayRead id _ _ => some id
  | .relayError id => some id
  | .timeout id => some id
  | .fromSocks id _ _ _ _ => some id
  | _ => none

def step (world : World) (label : Label) : Option World :=
  if world.phase = .running then
    match label with
    | .fromClient datagram calls => some (redudpPktFromClient world datagram calls)
    | .finiInstance => some (redudpFiniInstance world)
    | _ => (label.id?.bind world.client?).bind fun client => clientStep world client label
  else none

end ProxySet.Redudp
