import ProxySet.Redsocks.EventCore

/-!
The callbacks of one client once more, with a ledger of what C leaves to the
programmer: when the `redsocks_client` is used and dropped, and which of the lines
that `redsocks_evbuffer_readline` allocates have been given to `free`.  Calls whose
result the program ignores may fail here as well.
-/

namespace ProxySet.Audit

open TokenReader

/-- Lines are numbered in the order they are returned in.  `firstline` is the line that
`httpr->firstline` points to, as long as it is the line itself and not a copy. -/
structure Ledger where
  drops : Nat
  staleUses : Nat
  lines : Nat
  released : List Nat
  firstline : Option Nat
deriving DecidableEq, Repr

namespace Ledger

/-- A read or write of the client; several in a row count as one. -/
def use (ledger : Ledger) : Ledger :=
  if ledger.drops = 0 then ledger else { ledger with staleUses := ledger.staleUses + 1 }

def drop (ledger : Ledger) : Ledger := { ledger with drops := ledger.drops + 1 }

def readline (ledger : Ledger) : Ledger := { ledger with lines := ledger.lines + 1 }

def free (ledger : Ledger) (line : Nat) : Ledger :=
  { ledger with released := line :: ledger.released }

def keep (ledger : Ledger) (line : Nat) : Ledger := { ledger with firstline := some line }

def freeFirstline (ledger : Ledger) : Ledger :=
  { ledger with firstline := none, released := ledger.firstline.toList ++ ledger.released }

end Ledger

structure Audited where
  world : World
  ledger : Ledger
deriving DecidableEq, Repr

/-- Calls that fail without an answer: `bufferevent_write_buffer` and `bufferevent_enable` of the pump,
`bufferevent_enable` behind a written message, and `evbuffer_remove` of `redsocks_read_expected`, with
what its caller's buffer holds then. -/
structure Extras where
  pumpWrite : Bool
  pumpEnable : Bool
  waitEnable : Bool
  garbage : Option Bytes
deriving DecidableEq, Repr

def Extras.none : Extras :=
  { pumpWrite := false, pumpEnable := false, waitEnable := false, garbage := .none }

namespace Audited

def use (audited : Audited) : Audited := { audited with ledger := audited.ledger.use }

def onClient (audited : Audited) (change : Client → Client) : Audited :=
  { world := audited.world.withClient (change audited.world.client), ledger := audited.ledger.use }

def log (audited : Audited) (message : LogMsg) : Audited := audited.onClient (·.log message)

def onLedger (audited : Audited) (change : Ledger → Ledger) : Audited :=
  { audited with ledger := change audited.ledger }

def fini (audited : Audited) : Audited :=
  let finished := audited.onClient Client.fini
  if audited.world.client.subsys = .httpRelay then finished.onLedger Ledger.freeFirstline
  else finished

end Audited

def redsocksDropClient (audited : Audited) : Audited :=
  ((audited.log .droppingClient).fini.onClient fun client =>
    { client.call .drop with dropped := true }).onLedger Ledger.drop

/-- `redsocks_shutdown` before it looks whether both sides are done. -/
def shutOne (side : Side) (how : How) (client : Client) : Client :=
  let called := client.callShutdown side how
  (called.disable side how.events).setEvshut side ((called.evshut side).union how.events)

def redsocksShutdown (audited : Audited) (side : Side) (how : How) : Audited :=
  let closed := audited.onClient (shutOne side how)
  if closed.world.client.bothShut then redsocksDropClient (closed.log .bothDisconnected) else closed

def redsocksEventError (audited : Audited) (side : Side) (what : What) : Audited :=
  if what = .readEof then
    -- The client is read again behind the call that may have dropped it.
    let ended := (redsocksShutdown audited.use side .rd).use
    if ended.world.client.state = .pumpActive ∧ ended.world.client.isOpen side.other ∧
        (ended.world.client.buf side.other).output.length = 0 then
      redsocksShutdown ended side.other .wr
    else ended
  else redsocksDropClient (audited.log (.socketError side what))

def attempt (failed : Bool) (change : Client → Client) (client : Client) : Client :=
  if failed then client else change client

def redsocksRelayReadcb (extras : Extras) (audited : Audited) (source target : Side) : Audited :=
  audited.onClient fun client =>
    if (client.buf target).output.length < (client.buf target).wmWrite.high then
      attempt extras.pumpWrite (·.writeBuffer source target) client
    else if (client.buf source).enabled.read then client.disable source EvBits.evRead
    else client

def redsocksRelayWritecb (extras : Extras) (audited : Audited) (source target : Side) : Audited :=
  let entered := audited.onClient (·.call (.relayWritecb target))
  let sourceEof := (entered.world.client.evshut source).read
  if (entered.world.client.buf source).input.length = 0 ∧ sourceEof then
    redsocksShutdown entered target .wr
  else entered.onClient fun client =>
    if (client.buf target).output.length < (client.buf target).wmWrite.high then
      let moved := attempt extras.pumpWrite (·.writeBuffer source target) client
      if !sourceEof && !(moved.buf source).enabled.read then
        attempt extras.pumpEnable (·.enable source EvBits.evRead) moved
      else moved
    else client

def startPump (client : Client) : Client :=
  let pump := fun buffer : Bufferevent =>
    { buffer.setwatermark EvBits.both 0 redsocksRelayHalfbuff with
      readcb := .pump, writecb := .pump }
  (({ client with state := .pumpActive }.call .startRelay).modify .client pump).modify .relay pump

def redsocksStartRelay (env : Env) (audited : Audited) : Audited :=
  let clientOn := (audited.fini.onClient startPump).onClient fun client =>
    client.enable .client (EvBits.both.without client.clientEvshut)
  if env.fails .startEnableClient then redsocksDropClient (clientOn.log .startEnableFailed)
  else
    let relayOn := clientOn.onClient fun client =>
      client.enable .relay (EvBits.both.without client.relayEvshut)
    if env.fails .startEnableRelay then redsocksDropClient (relayOn.log .startEnableFailed)
    else relayOn

def redsocksReadExpected (extras : Extras) (audited : Audited) (comparator : Nat → Nat → Bool)
    (expected : Nat) : Option Bytes × Audited :=
  let input := audited.world.client.relay.input
  if comparator input.length expected then
    match extras.garbage with
    | some left => (some left, audited.use)
    | none =>
        (some (input.take expected), audited.onClient fun client =>
          client.modify .relay fun buffer => { buffer with input := buffer.input.drop expected })
  else (none, redsocksDropClient (audited.log .shortRead))

def redsocksWriteHelperWait (extras : Extras) (audited : Audited) (state : State)
    (wmLow wmHigh : Nat) : Audited :=
  audited.onClient fun client =>
    attempt extras.waitEnable (·.enable .relay EvBits.evRead)
      (({ client with state := state }).modify .relay (·.setwatermark EvBits.evRead wmLow wmHigh))

def redsocksWriteHelperEx (extras : Extras) (env : Env) (audited : Audited) (message : Message)
    (state : State) (wmLow wmHigh : Nat) : Audited :=
  match message with
  | .noMaker => redsocksWriteHelperWait extras audited state wmLow wmHigh
  | .failed => redsocksDropClient audited
  | .made data =>
      if env.fails .writeBuffer then redsocksDropClient (audited.log .writeBufferFailed)
      else redsocksWriteHelperWait extras
        (audited.onClient (·.modify .relay (·.write data))) state wmLow wmHigh

def redsocksWriteHelper (extras : Extras) (env : Env) (audited : Audited) (message : Message)
    (state : State) (wmOnly : Nat) : Audited :=
  redsocksWriteHelperEx extras env audited message state wmOnly wmOnly

def redsocksConnectRelay (env : Env) (audited : Audited) : Audited :=
  if env.fails .connectRelay then
    redsocksDropClient
      ((audited.onClient fun client =>
        { client with relay := Bufferevent.null, relayOpen := false }).log .connectRelayFailed)
  else audited.onClient fun client =>
    { client.call (.connectRelay client.relayEvshut) with relay := redConnectRelay, relayOpen := true }

def socks4ReadCb (extras : Extras) (env : Env) (audited : Audited) : Audited :=
  match audited.world.client.state with
  | .socks4 .requestSent =>
      match redsocksReadExpected extras audited.use sizesGreaterEqual 8 with
      | (none, dropped) => dropped
      | (some reply, read) =>
          let came := read.onClient fun client => { client with state := .socks4 .replyCame }
          if reply.getD 0 0 ≠ 0 then redsocksDropClient (came.log .socks4Version)
          else if reply.getD 1 0 = 90 then redsocksStartRelay env came
          else redsocksDropClient (came.log (.socks4Status (reply.getD 1 0)))
  | .socks4 .replyCame => audited.use
  | _ => audited.onClient Client.assertFail

def socks4WriteCb (extras : Extras) (env : Env) (config : Config) (audited : Audited) : Audited :=
  match audited.world.client.state with
  | .socks4 .new =>
      redsocksWriteHelper extras env audited.use
        (.make env (socks4Mkconnect config audited.world.client)) (.socks4 .requestSent) 8
  | .socks4 _ => audited.onClient (·.disable .relay EvBits.evWrite)
  | _ => audited.use

def socks5WriteCb (extras : Extras) (env : Env) (audited : Audited) : Audited :=
  match audited.world.client.state with
  | .socks5 .new =>
      redsocksWriteHelper extras env audited.use
        (.make env (socks5MkmethodsPlain audited.world.client.socks5.doPassword))
        (.socks5 .methodSent) 2
  | _ => audited.use

def socks5ReadAuthMethods (extras : Extras) (env : Env) (config : Config) (audited : Audited) :
    Audited :=
  match redsocksReadExpected extras audited sizesEqual 2 with
  | (none, dropped) => dropped
  | (some reply, read) =>
      let method := reply.getD 1 0
      match socks5IsKnownAuthMethod (reply.getD 0 0) method read.world.client.socks5.doPassword with
      | some error => redsocksDropClient (read.log (.socks5Method error))
      | none =>
          if method = 0 then
            redsocksWriteHelper extras env read
              (.make env (socks5Mkconnect read.world.client)) (.socks5 .requestSent) 4
          else if method = 2 then
            redsocksWriteHelper extras env read
              (.make env (socks5MkpasswordPlain (config.login.getD []) (config.password.getD [])))
              (.socks5 .authSent) 2
          else read.use

def socks5ReadAuthReply (extras : Extras) (env : Env) (audited : Audited) : Audited :=
  match redsocksReadExpected extras audited sizesEqual 2 with
  | (none, dropped) => dropped
  | (some reply, read) =>
      if reply.getD 0 0 ≠ 1 then redsocksDropClient (read.log .socks5AuthVersion)
      else if reply.getD 1 0 = 0 then
        redsocksWriteHelper extras env read (.make env (socks5Mkconnect read.world.client))
          (.socks5 .requestSent) 4
      else redsocksDropClient read

def socks5ReadReply (extras : Extras) (env : Env) (audited : Audited) : Audited :=
  match redsocksReadExpected extras audited sizesGreaterEqual 4 with
  | (none, dropped) => dropped
  | (some reply, read) =>
      let skip := fun count : Nat => read.onClient fun client =>
        { client with socks5 := { client.socks5 with toSkip := count } }
      if reply.getD 0 0 ≠ 5 then redsocksDropClient (read.log .socks5ReplyVersion)
      else if reply.getD 1 0 = 0 then
        if reply.getD 3 0 = 1 then
          redsocksWriteHelper extras env (skip 6) .noMaker (.socks5 .skipAddress) 6
        else if reply.getD 3 0 = 4 then
          redsocksWriteHelper extras env (skip 18) .noMaker (.socks5 .skipAddress) 18
        else if reply.getD 3 0 = 3 then
          redsocksWriteHelper extras env read .noMaker (.socks5 .skipDomain) 1
        else redsocksDropClient (read.log .socks5AddressType)
      else redsocksDropClient (read.log (.socks5Status (reply.getD 1 0)))

def socks5ReadCb (extras : Extras) (env : Env) (config : Config) (audited : Audited) : Audited :=
  match audited.world.client.state with
  | .socks5 .methodSent => socks5ReadAuthMethods extras env config audited.use
  | .socks5 .authSent => socks5ReadAuthReply extras env audited.use
  | .socks5 .requestSent => socks5ReadReply extras env audited.use
  | .socks5 .skipDomain =>
      match redsocksReadExpected extras audited.use sizesGreaterEqual 1 with
      | (none, dropped) => dropped
      | (some size, read) =>
          let toSkip := (size.getD 0 0).toNat + 2
          redsocksWriteHelper extras env
            (read.onClient fun client =>
              { client with socks5 := { client.socks5 with toSkip := toSkip } })
            .noMaker (.socks5 .skipAddress) toSkip
  | .socks5 .skipAddress =>
      match redsocksReadExpected extras audited.use sizesGreaterEqual
          audited.world.client.socks5.toSkip with
      | (none, dropped) => dropped
      | (some _, read) => redsocksStartRelay env read
  | _ => redsocksDropClient audited.use

def Ledger.pass (ledger : Ledger) : Ledger := (ledger.readline).free ledger.lines

structure AuthSearch where
  search : HeaderSearch
  found : Option Nat
  ledger : Ledger
deriving DecidableEq, Repr

def AuthSearch.look (state : AuthSearch) (line : Bytes) : AuthSearch :=
  let search := state.search.look line
  match search with
  | .found _ =>
      { search := search, found := some state.ledger.lines, ledger := state.ledger.readline }
  | _ => { search := search, found := state.found, ledger := state.ledger.pass }

def AuthSearch.isDone (state : AuthSearch) : Bool := state.search.isDone

def getAuthRequestHeader (ledger : Ledger) (buffer : Bytes) : AuthSearch × Bytes :=
  redsocksEvbufferReadline.drain AuthSearch.look AuthSearch.isDone
    { search := .searching, found := none, ledger := ledger } buffer

/-- When a 407 handler frees its status line: http-relay does so before it looks for the challenge,
http-connect once it has found it. -/
inductive FreesLine where
  | early
  | late
deriving DecidableEq, Repr

def authRequired (frees : FreesLine) (env : Env) (audited : Audited) (line : Nat) (retry : State) :
    Audited :=
  let world := audited.world
  if world.auth.lastAuthQuery.isSome ∧ world.auth.lastAuthCount = 1 then
    (redsocksDropClient (audited.log .proxyAuthFailed)).onLedger (·.free line)
  else if world.config.login.isNone ∨ world.config.password.isNone then
    (redsocksDropClient (audited.log .noLogin)).onLedger (·.free line)
  else
    let started := if frees = .early then audited.onLedger (·.free line) else audited
    let (search, rest) := getAuthRequestHeader started.ledger world.client.relay.input
    let searched : Audited :=
      ({ started with ledger := search.ledger }).onClient (·.setInput .relay rest)
    match search.search with
    | .found challenge =>
        let freed := if frees = .early then searched else searched.onLedger (·.free line)
        let stored : Audited :=
          { freed with world := { freed.world with
            auth := { lastAuthQuery := some (challengeOf challenge), lastAuthCount := 0 } } }
        let closed := (stored.onLedger fun ledger =>
          search.found.elim ledger ledger.free).onClient fun client =>
            { (client.disable .relay EvBits.evWrite).call .closeRelay with state := retry }
        redsocksConnectRelay env closed
    | _ => (redsocksDropClient (searched.log .noChallenge)).onLedger (·.free line)

def skipLine (reply : HttpcState × Ledger) (line : Bytes) : HttpcState × Ledger :=
  (httpcSkipLine reply.1 line, reply.2.pass)

def httpcSkipHeaders (env : Env) (audited : Audited) : Audited :=
  let ((state, ledger), rest) := redsocksEvbufferReadline.drain skipLine
    (fun reply => httpcSkipDone reply.1) (.replyCame, audited.ledger)
    audited.world.client.relay.input
  let read := ({ audited with ledger := ledger }).onClient fun client =>
    { client.setInput .relay rest with state := .httpc state }
  if state = .headersSkipped then redsocksStartRelay env read else read

def httpcReadCb (env : Env) (audited : Audited) : Audited :=
  let client := audited.world.client
  match client.state with
  | .httpc .requestSent =>
      match redsocksEvbufferReadline.next client.relay.input with
      | some (text, rest) =>
          let line := audited.ledger.lines
          let taken := (audited.onLedger Ledger.readline).onClient (·.setInput .relay rest)
          match sscanfHttpStatus text with
          | some code =>
              if code = 407 then authRequired .late env taken line (.httpc .new)
              else if 200 ≤ code ∧ code ≤ 299 then
                httpcSkipHeaders env ((taken.onClient fun client =>
                  { client with state := .httpc .replyCame }).onLedger (·.free line))
              else (redsocksDropClient (taken.log (.unexpectedReply text))).onLedger (·.free line)
          | none => taken.onLedger (·.free line)
      | none =>
          if httpHeadWmHigh ≤ client.relay.input.length then redsocksDropClient audited.use
          else audited.use
  | .httpc .replyCame => httpcSkipHeaders env audited.use
  | .httpc .headersSkipped => redsocksStartRelay env audited.use
  | _ => audited.onClient Client.assertFail

def httpcWriteCb (extras : Extras) (env : Env) (audited : Audited) : Audited :=
  let world := audited.world
  match world.client.state with
  | .httpc .new =>
      if env.fails .mkmessage then redsocksDropClient audited.use
      else
        let auth := world.auth.count
        let credentials := httpcCredentials env world.config auth world.client.destaddr
        let counted : Audited := { audited with world := { world with auth := auth } }
        redsocksWriteHelperEx extras env
          (counted.onClient (·.call (.request (credentials.map Prod.snd) auth.lastAuthQuery)))
          (.made (httpcMkconnect world.client credentials)) (.httpc .requestSent) 1 httpHeadWmHigh
  | .httpc _ => audited.onClient (·.disable .relay EvBits.evWrite)
  | _ => audited.use

def replyLine (reply : (HttprState × Bytes) × Ledger) (line : Bytes) :
    (HttprState × Bytes) × Ledger :=
  (httprReplyLine reply.1 line, reply.2.pass)

def httprRelayPump (env : Env) (audited : Audited) : Audited :=
  if env.fails .httprReplyWrite then redsocksDropClient (audited.log .httprReplyWrite)
  else redsocksStartRelay env (audited.onClient fun client =>
    client.modify .client (·.write client.httpr.relayBuffer))

def httprRelayReply (env : Env) (audited : Audited) : Audited :=
  let (((state, relayBuffer), ledger), rest) := redsocksEvbufferReadline.drain replyLine
    (fun reply => httprReplyDone reply.1)
    ((.replyCame, audited.world.client.httpr.relayBuffer), audited.ledger)
    audited.world.client.relay.input
  let read := ({ audited with ledger := ledger }).onClient fun client =>
    { (client.setInput .relay rest).setRelayBuffer relayBuffer with state := .httpr state }
  if state = .headersSkipped then httprRelayPump env read else read

def httprRelayReadCb (env : Env) (entered : Audited) : Audited :=
  let audited := entered.onClient (·.setRelayBuffer [])
  let client := audited.world.client
  match client.state with
  | .httpr .requestSent =>
      match redsocksEvbufferReadline.next client.relay.input with
      | some (text, rest) =>
          let line := audited.ledger.lines
          let taken := (audited.onLedger Ledger.readline).onClient fun client =>
            (client.setInput .relay rest).setRelayBuffer (httprAddLine [] text)
          match sscanfHttpStatus text with
          | some code =>
              if code = 407 then authRequired .early env taken line (.httpr .recvRequestHeaders)
              else if 100 ≤ code ∧ code ≤ 999 then
                httprRelayReply env ((taken.onClient fun client =>
                  { client with state := .httpr .replyCame }).onLedger (·.free line))
              else (redsocksDropClient (taken.log (.unexpectedReply text))).onLedger (·.free line)
          | none => taken.onLedger (·.free line)
      | none =>
          if httpHeadWmHigh ≤ client.relay.input.length then redsocksDropClient audited else audited
  | .httpr .replyCame => httprRelayReply env audited
  | .httpr .headersSkipped => httprRelayPump env audited
  | _ => audited.onClient Client.assertFail

def httprSendRequest (extras : Extras) (env : Env) (audited : Audited)
    (credentials : Option (Bytes × Bytes)) (challenge : Option Bytes) : Audited :=
  let line := match credentials with
    | some (scheme, text) => authLine scheme text
    | none => []
  if credentials.isSome ∧ env.fails .httprAuth then redsocksDropClient (audited.log .httprWrite)
  else if env.fails .httprHeaders then redsocksDropClient (audited.log .httprWrite)
  else audited.onClient fun client =>
    let written := client.modify .relay (·.write (line ++ client.httpr.clientBuffer))
    let asked := written.call (.request (credentials.map Prod.snd) challenge)
    attempt extras.waitEnable (·.enable .relay EvBits.evRead)
      (({ asked with state := .httpr .requestSent }).modify .relay
        (·.setwatermark EvBits.evRead 1 httpHeadWmHigh))

def httprRelayWriteCb (extras : Extras) (env : Env) (audited : Audited) : Audited :=
  let world := audited.world
  let client := world.client
  match client.state with
  | .httpr .recvRequestHeaders =>
      if client.httpr.firstline.isSome ∧ env.fails .httprFirstline then
        redsocksDropClient (audited.log .httprWrite)
      else
        let auth := world.auth.count
        let counted : Audited := { audited with world := { world with auth := auth } }
        let started := counted.onClient fun client =>
          client.modify .relay (·.write (client.httpr.firstline.getD []))
        match httprCredentials env world.config auth client.httpr.firstline with
        | .error message => redsocksDropClient (started.log message)
        | .ok credentials => httprSendRequest extras env started credentials auth.lastAuthQuery
  | .httpr .new => audited.onClient Client.assertFail
  | .httpr _ => audited.use
  | _ => audited.onClient Client.assertFail

/-- One turn of the loop of `httpr_client_read_cb`: the first line is kept, the last one of the
header makes `httpr_toss_http_firstline` free it for a copy. -/
def clientLine (env : Env) (address : SockaddrIn) (state : HttprRead × Ledger) (line : Bytes) :
    HttprRead × Ledger :=
  let (read, ledger) := state
  (read.line env address line,
    if line.isEmpty then
      let tossed :=
        match read.httpr.firstline, httprTossHttpFirstline env read.httpr address with
        | some _, .ok _ => ledger.readline.freeFirstline
        | _, _ => ledger.readline
      tossed.free ledger.lines
    else if read.httpr.firstline.isNone then ledger.readline.keep ledger.lines
    else ledger.pass)

def httprClientReadContent (env : Env) (audited : Audited) : Audited :=
  let client := audited.world.client
  let data := client.client.input
  if env.fails .contentAlloc then redsocksDropClient (audited.log .outOfMemory)
  else if env.fails .contentRemove then redsocksDropClient (audited.log .evbufferRemove)
  else
    let kept := audited.onClient fun client => { client.setInput .client [] with
      httpr := { client.httpr with clientBuffer := client.httpr.clientBuffer ++ data } }
    if data.isEmpty || !(client.relayOpen && client.state.httprRequestSent) then kept
    else if env.fails .contentWrite then redsocksDropClient (kept.log .contentWrite)
    else kept.onClient (·.modify .relay (·.write data))

def httprClientReadCb (env : Env) (audited : Audited) : Audited :=
  let client := audited.world.client
  match client.state with
  | .httpr .new =>
      let ((read, ledger), rest) := redsocksEvbufferReadline.drain (clientLine env client.destaddr)
        (fun state => state.1.isDone)
        ({ httpr := client.httpr, connectRelay := false, doDrop := false, logs := [] },
          audited.ledger.use)
        client.client.input
      let taken := ({ audited with ledger := ledger }).onClient fun client =>
        { client.setInput .client rest with
          httpr := read.httpr, trace := read.logs.map Call.log ++ client.trace }
      if read.doDrop then redsocksDropClient taken
      else if read.connectRelay then
        -- `httpr_client_read_content` has no result to look at.
        redsocksConnectRelay env (httprClientReadContent env
          (taken.onClient fun client => { client with state := .httpr .recvRequestHeaders }))
      else taken
  | .httpr _ => httprClientReadContent env audited.use
  | _ => audited.use

def httprConnectRelay (env : Env) (audited : Audited) : Audited :=
  let reading := audited.onClient fun client =>
    (client.modify .client fun buffer => { buffer with readcb := .httprClient }).enable .client
      EvBits.evRead
  if env.fails .httprEnable then redsocksDropClient (reading.log .acceptEnableFailed) else reading

def relaySsReadcb (extras : Extras) (env : Env) (audited : Audited) : Audited :=
  match audited.world.client.subsys with
  | .httpConnect => httpcReadCb env audited
  | .httpRelay => httprRelayReadCb env audited
  | .socks4 => socks4ReadCb extras env audited
  | .socks5 => socks5ReadCb extras env audited.world.config audited

def relaySsWritecb (extras : Extras) (env : Env) (audited : Audited) : Audited :=
  match audited.world.client.subsys with
  | .httpConnect => httpcWriteCb extras env audited
  | .httpRelay => httprRelayWriteCb extras env audited
  | .socks4 => socks4WriteCb extras env audited.world.config audited
  | .socks5 => socks5WriteCb extras env audited

def redsocksRelayConnected (extras : Extras) (env : Env) (audited : Audited) : Audited :=
  if env.fails .connected then redsocksDropClient (audited.log .notConnected)
  else relaySsWritecb extras env (audited.onClient fun client => client.modify .relay
    fun buffer => { buffer with readcb := .subsys, writecb := .subsys })

def runReadcb (extras : Extras) (env : Env) (audited : Audited) (side : Side) : Audited :=
  match (audited.world.client.buf side).readcb with
  | .none => audited
  | .subsys => relaySsReadcb extras env audited
  | .httprClient => httprClientReadCb env audited
  | .pump => redsocksRelayReadcb extras audited side side.other

def runWritecb (extras : Extras) (env : Env) (audited : Audited) (side : Side) : Audited :=
  match (audited.world.client.buf side).writecb with
  | .none => audited
  | .connected => redsocksRelayConnected extras env audited
  | .subsys => relaySsWritecb extras env audited
  | .pump => redsocksRelayWritecb extras audited side.other side

/-- A callback of libevent, or the shutdown of the instance, which drops the clients it still has. -/
inductive Label where
  | event (extras : Extras) (event : Event)
  | finiInstance

/-- What libevent itself does to a bufferevent is no use of the client. -/
def Audited.onBuffer (audited : Audited) (change : Client → Client) : Audited :=
  { audited with world := audited.world.withClient (change audited.world.client) }

def auditStep (audited : Audited) (label : Label) : Option Audited :=
  let client := audited.world.client
  if client.dropped then none
  else match label with
    | .event extras (.readData side chunk env) =>
        let buffer := client.buf side
        if buffer.canRead && buffer.fits chunk then
          let read := audited.onBuffer (·.setBuf side (buffer.receive chunk))
          if buffer.wmRead.low ≤ (buffer.receive chunk).input.length then
            let ran := runReadcb extras env read side
            if endless buffer.readcb ran.world.client then none else some ran
          else some read
        else none
    | .event extras (.writeReady side count env) =>
        let buffer := client.buf side
        if buffer.evWrite && buffer.mayTransmit count then
          let sent := audited.onBuffer (·.setBuf side (buffer.transmit count))
          if (buffer.transmit count).output.length ≤ buffer.wmWrite.low then
            some (runWritecb extras env sent side)
          else some sent
        else none
    | .event _ (.report side what) =>
        if reports (client.buf side) what then
          some (redsocksEventError (audited.onBuffer (·.disable side what.events)) side what)
        else none
    | .event _ (.others auth) => some { audited with world := { audited.world with auth := auth } }
    | .finiInstance => some (redsocksDropClient audited)

def newLedger : Ledger :=
  { drops := 0, staleUses := 0, lines := 0, released := [], firstline := none }

def newAudited (config : Config) (auth : HttpAuth) (subsys : Subsys) (address : SockaddrIn) :
    Audited :=
  { world := { config := config, auth := auth, client := newClient config subsys address }
    ledger := newLedger }

/-- `redsocks_accept_client` from the point where the client has been put on the list. -/
def redsocksAcceptClient (env : Env) (config : Config) (auth : HttpAuth) (subsys : Subsys)
    (address : SockaddrIn) : Audited :=
  let reading := (newAudited config auth subsys address).onClient (·.enable .client EvBits.evRead)
  if env.fails .acceptEnable then redsocksDropClient (reading.log .acceptEnableFailed)
  else match subsys with
    | .httpRelay => httprConnectRelay env reading
    | _ => redsocksConnectRelay env reading

end ProxySet.Audit
