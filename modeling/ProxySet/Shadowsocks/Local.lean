import ProxySet.Shadowsocks.Encrypt

/-!
`local.c`: the SOCKS server of the shadowsocks client.  An accepted connection is
a `struct server` and the `struct remote` behind it, which are freed together.  A
callback runs with what `recv`, `send` and `getpeername` return to it; a list of
turns ends where `recv` has no more data.  A callback that writes behind an array has
no result.
-/

namespace ProxySet.Shadowsocks

def bufSize : Nat := 4096

inductive Received where
  | data (chunk : Bytes)
  | closed
  | failed
deriving DecidableEq, Repr

inductive Sent where
  | taken (count : Nat)
  | again
  | failed
deriving DecidableEq, Repr

/-- One turn of the loop around `recv`; a request is followed by two calls of `send`. -/
structure Turn where
  received : Received
  first : Sent
  second : Sent
deriving DecidableEq, Repr

inductive Stage where
  | zero
  | one
  | five
deriving DecidableEq, Repr

structure Settings where
  method : Method
  hash : Bytes
  remotePort : UInt16
deriving DecidableEq, Repr

inductive Ending where
  | serverClosed
  | remoteClosed
  | otherwise
deriving DecidableEq, Repr

/-- Both structures of a connection with their watchers.  The fields from `ending` on are kept by no
function of the program: why it was closed, the bytes read as the greeting and as the request, the
address sent ahead and how much of it was taken, the bytes read behind the request, the bytes read
from the remote, the answers of the SOCKS server itself, and the bytes taken by the two sockets. -/
structure Relay where
  stage : Stage
  serverBuf : Bytes
  serverLen : Nat
  remoteBuf : Bytes
  remoteLen : Nat
  eCtx : Ctx
  dCtx : Ctx
  connected : Bool
  serverRecv : Bool
  serverSend : Bool
  remoteRecv : Bool
  remoteSend : Bool
  timer : Bool
  freed : Bool
  ending : Option Ending
  greeted : Bytes
  asked : Bytes
  header : Bytes
  headerTaken : Nat
  heard : Bytes
  told : Bytes
  toRemote : Bytes
  answered : Bytes
  toServer : Bytes
deriving DecidableEq, Repr

def Relay.read (relay : Relay) : Bytes :=
  relay.greeted ++ relay.asked ++ relay.heard

/-- `accept_cb`; the buffers are not cleared. -/
def accepted (ctx : Ctx) (serverBuf remoteBuf : Bytes) : Relay :=
  { stage := .zero
    serverBuf := serverBuf
    serverLen := 0
    remoteBuf := remoteBuf
    remoteLen := 0
    eCtx := ctx
    dCtx := ctx
    connected := false
    serverRecv := false
    serverSend := false
    remoteRecv := false
    remoteSend := true
    timer := true
    freed := false
    ending := none
    greeted := []
    asked := []
    header := []
    headerTaken := 0
    heard := []
    told := []
    toRemote := []
    answered := []
    toServer := [] }

def closeAndFree (ending : Ending) (relay : Relay) : Relay :=
  { relay with
    serverRecv := false
    serverSend := false
    remoteRecv := false
    remoteSend := false
    timer := false
    freed := true
    ending := some ending }

def Sent.part (sent : Sent) (message : Bytes) : Bytes :=
  match sent with
  | .taken count => message.take count
  | _ => []

/-- `recv` and `memcpy` leave what lies behind. -/
def overwrite (buf data : Bytes) : Bytes :=
  data ++ buf.drop data.length

def moveFront (buf : Bytes) (length count : Nat) : Bytes :=
  overwrite buf ((buf.take length).drop count)

structure AddrToSend where
  bytes : Bytes
  len : UInt8
deriving DecidableEq, Repr

def AddrToSend.push (addr : AddrToSend) (byte : UInt8) : AddrToSend :=
  { bytes := addr.bytes.set addr.len.toNat byte, len := addr.len + 1 }

/-- `memcpy` behind what `addr_len` counts; there is no result where it writes behind the array. -/
def AddrToSend.copy (addr : AddrToSend) (data : Bytes) : Option AddrToSend :=
  if addr.len.toNat + data.length ≤ addr.bytes.length then
    some
      { bytes := addr.bytes.take addr.len.toNat ++
          (data ++ addr.bytes.drop (addr.len.toNat + data.length))
        len := addr.len + data.length.toUInt8 }
  else none

def newAddrToSend : AddrToSend :=
  { bytes := List.replicate 256 0, len := 0 }

inductive AddrResult where
  | sends (addr : AddrToSend)
  | refused
  | overrun
deriving DecidableEq, Repr

def AddrResult.ofCopy : Option AddrToSend → AddrResult
  | some addr => .sends addr
  | none => .overrun

def addrToSend (buf : Bytes) : AddrResult :=
  let byte := fun spot => buf.getD spot 0
  let addr := newAddrToSend.push (byte 3)
  if byte 3 = 1 then .ofCopy (addr.copy ((buf.drop 4).take 6))
  else if byte 3 = 3 then
    let nameLen := (byte 4).toNat
    .ofCopy (((addr.push (byte 4)).copy ((buf.drop 5).take nameLen)).map fun named =>
      (named.push (byte (5 + nameLen))).push (byte (5 + nameLen + 1)))
  else .refused

def fakeReply (settings : Settings) : Bytes :=
  [5, 0, 0, 1, 0, 0, 0, 0, (settings.remotePort >>> 8).toUInt8, settings.remotePort.toUInt8]

/-- `send(server->fd, ..)` of an answer of the SOCKS server itself. -/
def answer (relay : Relay) (message : Bytes) (sent : Sent) : Relay :=
  { relay with
    answered := relay.answered ++ message
    toServer := relay.toServer ++ sent.part message }

def serverRequest (settings : Settings) (relay : Relay) (turn : Turn) : Option (Relay × Bool) :=
  if relay.serverBuf.getD 1 0 ≠ 1 then
    some (closeAndFree .otherwise (answer relay [5, 7, 0, 1] turn.first), false)
  else
    match addrToSend relay.serverBuf with
    | .refused => some (closeAndFree .otherwise relay, false)
    | .overrun => none
    | .sends addr =>
        let header := addr.bytes.take addr.len.toNat
        let code := encrypt.code relay.eCtx header
        let asked := { relay with
          eCtx := encrypt.after relay.eCtx header
          header := header
          headerTaken := (turn.first.part code).length
          toRemote := relay.toRemote ++ turn.first.part code
          serverBuf := overwrite relay.serverBuf (fakeReply settings) }
        let replied := answer asked (fakeReply settings) turn.second
        if (turn.second.part (fakeReply settings)).length < (fakeReply settings).length then
          some (closeAndFree .otherwise replied, false)
        else some ({ replied with stage := .five }, true)

def serverForward (relay : Relay) (chunk : Bytes) (sent : Sent) : Relay × Bool :=
  let code := encrypt.code relay.eCtx chunk
  let filled := { relay with
    eCtx := encrypt.after relay.eCtx chunk
    heard := relay.heard ++ chunk
    remoteBuf := overwrite relay.remoteBuf code }
  let waits := { filled with serverRecv := false, remoteSend := true }
  match sent with
  | .again => ({ waits with remoteLen := chunk.length }, false)
  | .failed => (closeAndFree .otherwise filled, false)
  | .taken count =>
      if count < chunk.length then
        ({ waits with
          toRemote := waits.toRemote ++ code.take count
          remoteBuf := moveFront waits.remoteBuf chunk.length count
          remoteLen := chunk.length - count }, false)
      else ({ filled with toRemote := filled.toRemote ++ code }, true)

def serverRecvTurn (settings : Settings) (relay : Relay) (turn : Turn) : Option (Relay × Bool) :=
  match turn.received with
  | .closed => some (closeAndFree .serverClosed relay, false)
  | .failed => some (closeAndFree .otherwise relay, false)
  | .data chunk =>
      let filled := { relay with serverBuf := overwrite relay.serverBuf chunk }
      if relay.stage = .five then some (serverForward relay chunk turn.first)
      else if relay.stage = .zero then
        some (answer { filled with greeted := relay.greeted ++ chunk, stage := .one } [5, 0]
          turn.first, false)
      else serverRequest settings { filled with asked := relay.asked ++ chunk } turn

def recvLoop (turnOf : Relay → Turn → Option (Relay × Bool)) : List Turn → Relay → Option Relay
  | [], relay => some relay
  | turn :: rest, relay =>
      match turnOf relay turn with
      | none => none
      | some (next, more) => if more then recvLoop turnOf rest next else some next

def serverRecvCb (settings : Settings) : List Turn → Relay → Option Relay :=
  recvLoop (serverRecvTurn settings)

def serverSendCb (relay : Relay) (sent : Sent) : Relay :=
  if relay.serverLen = 0 then closeAndFree .otherwise relay
  else match sent with
    | .again => relay
    | .failed => closeAndFree .otherwise relay
    | .taken count =>
        let given := { relay with
          toServer := relay.toServer ++ (relay.serverBuf.take relay.serverLen).take count }
        if count < relay.serverLen then
          { given with
            serverBuf := moveFront relay.serverBuf relay.serverLen count
            serverLen := relay.serverLen - count }
        else { given with serverSend := false, remoteRecv := true }

def remoteRecvTurn (relay : Relay) (turn : Turn) : Relay × Bool :=
  match turn.received with
  | .closed => (closeAndFree .remoteClosed relay, false)
  | .failed => (closeAndFree .otherwise relay, false)
  | .data chunk =>
      let text := decrypt.code relay.dCtx chunk
      let filled := { relay with
        dCtx := decrypt.after relay.dCtx chunk
        told := relay.told ++ chunk
        serverBuf := overwrite relay.serverBuf text }
      let waits := { filled with remoteRecv := false, serverSend := true }
      match turn.first with
      | .again => ({ waits with serverLen := chunk.length }, false)
      | .failed => (closeAndFree .otherwise filled, false)
      | .taken count =>
          if count < chunk.length then
            ({ waits with
              toServer := waits.toServer ++ text.take count
              serverBuf := moveFront waits.serverBuf chunk.length count
              serverLen := chunk.length - count }, false)
          else ({ filled with toServer := filled.toServer ++ text }, true)

def remoteRecvCb : List Turn → Relay → Option Relay :=
  recvLoop fun relay turn => some (remoteRecvTurn relay turn)

/-- `peer` is the result of `getpeername`. -/
def remoteSendCb (relay : Relay) (peer : Bool) (sent : Sent) : Relay :=
  if !relay.connected then
    if peer then
      { relay with
        connected := true
        remoteSend := false
        timer := false
        serverRecv := true
        remoteRecv := true }
    else closeAndFree .otherwise relay
  else if relay.remoteLen = 0 then closeAndFree .otherwise relay
  else match sent with
    | .again => relay
    | .failed => closeAndFree .otherwise relay
    | .taken count =>
        let given := { relay with
          toRemote := relay.toRemote ++ (relay.remoteBuf.take relay.remoteLen).take count }
        if count < relay.remoteLen then
          { given with
            remoteBuf := moveFront relay.remoteBuf relay.remoteLen count
            remoteLen := relay.remoteLen - count }
        else { given with remoteSend := false, serverRecv := true }

inductive Event where
  | serverRecv (turns : List Turn)
  | serverSend (sent : Sent)
  | remoteRecv (turns : List Turn)
  | remoteSend (peer : Bool) (sent : Sent)
  | remoteTimeout
deriving DecidableEq, Repr

/-- `recv` returns at least one byte and at most a buffer. -/
def Turn.fits (turn : Turn) : Bool :=
  match turn.received with
  | .data chunk => !chunk.isEmpty && decide (chunk.length ≤ bufSize)
  | _ => true

def step (settings : Settings) (relay : Relay) : Event → Option Relay
  | .serverRecv turns =>
      if relay.serverRecv && turns.all Turn.fits then serverRecvCb settings turns relay else none
  | .serverSend sent => if relay.serverSend then some (serverSendCb relay sent) else none
  | .remoteRecv turns =>
      if relay.remoteRecv && turns.all Turn.fits then remoteRecvCb turns relay else none
  | .remoteSend peer sent =>
      if relay.remoteSend then some (remoteSendCb relay peer sent) else none
  | .remoteTimeout => if relay.timer then some (closeAndFree .otherwise relay) else none

end ProxySet.Shadowsocks
