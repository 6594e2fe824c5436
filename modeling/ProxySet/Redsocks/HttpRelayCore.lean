import ProxySet.Redsocks.HttpCore

/-! `http-relay.c` -/

namespace ProxySet

open TokenReader

def httprAddLine (buffer line : Bytes) : Bytes :=
  buffer ++ line ++ crlf

def Client.setRelayBuffer (client : Client) (buffer : Bytes) : Client :=
  { client with httpr := { client.httpr with relayBuffer := buffer } }

def httprReplyLine (reply : HttprState × Bytes) (line : Bytes) : HttprState × Bytes :=
  (if line.isEmpty then .headersSkipped else reply.1, httprAddLine reply.2 line)

def httprReplyDone (reply : HttprState × Bytes) : Bool :=
  reply.1 != .replyCame

def httprRelayPump (env : Env) (client : Client) : Client :=
  if env.fails .httprReplyWrite then redsocksDropClient (client.log .httprReplyWrite)
  else redsocksStartRelay env (client.modify .client (·.write client.httpr.relayBuffer))

/-- The `while` loop of `httpr_relay_read_cb` and what follows it. -/
def httprRelayReply (env : Env) (client : Client) : Client :=
  let ((state, relayBuffer), rest) := redsocksEvbufferReadline.drain httprReplyLine httprReplyDone
    (.replyCame, client.httpr.relayBuffer) client.relay.input
  let read := { (client.setInput .relay rest).setRelayBuffer relayBuffer with
    state := .httpr state }
  if state = .headersSkipped then httprRelayPump env read else read

def httprRelayReadCb (env : Env) (world : World) : World :=
  -- The buffer is freed and made anew on every entry.
  let client := world.client.setRelayBuffer []
  match client.state with
  | .httpr .requestSent =>
      match redsocksEvbufferReadline.next client.relay.input with
      | some (line, rest) =>
          let taken := (client.setInput .relay rest).setRelayBuffer (httprAddLine [] line)
          match sscanfHttpStatus line with
          | some code =>
              if code = 407 then
                authRequired env (world.withClient taken) (.httpr .recvRequestHeaders)
              else if 100 ≤ code ∧ code ≤ 999 then
                world.withClient (httprRelayReply env { taken with state := .httpr .replyCame })
              else world.withClient (redsocksDropClient (taken.log (.unexpectedReply line)))
          | none => world.withClient taken
      | none =>
          if httpHeadWmHigh ≤ client.relay.input.length then
            world.withClient (redsocksDropClient client)
          else world.withClient client
  | .httpr .replyCame => world.withClient (httprRelayReply env client)
  | .httpr .headersSkipped => world.withClient (httprRelayPump env client)
  | _ => world.withClient client.assertFail

def httprDigestUri (firstline : Bytes) : Option Bytes :=
  match strchr firstline 47 with
  | some (_ :: 47 :: authority) =>
      (strchr authority 47).bind fun path =>
        (strchr path 32).map fun _ => path.takeWhile (· ≠ 32)
  | _ => none

def httprCredentials (env : Env) (config : Config) (auth : HttpAuth) (firstline : Option Bytes) :
    Except LogMsg (Option (Bytes × Bytes)) :=
  match auth.lastAuthQuery with
  | none => .ok none
  | some query =>
      if isBasic query then .ok (basicCredentials config)
      else match isDigest query, firstline with
        | true, some line =>
            match httprDigestUri line with
            | none => .error .malformedRequest
            | some uri =>
                .ok (digestCredentials env config query auth.lastAuthCount
                  (line.takeWhile (· ≠ 32)) uri)
        | _, _ => .ok none

/-- What `httpr_relay_write_cb` does once the first line is written and the credentials are made. -/
def httprSendRequest (env : Env) (client : Client) (credentials : Option (Bytes × Bytes))
    (challenge : Option Bytes) : Client :=
  let line := match credentials with
    | some (scheme, text) => authLine scheme text
    | none => []
  if credentials.isSome ∧ env.fails .httprAuth then redsocksDropClient (client.log .httprWrite)
  else if env.fails .httprHeaders then redsocksDropClient (client.log .httprWrite)
  else
    let written := client.modify .relay (·.write (line ++ client.httpr.clientBuffer))
    let asked := written.call (.request (credentials.map Prod.snd) challenge)
    (({ asked with state := .httpr .requestSent }).modify .relay
      (·.setwatermark EvBits.evRead 1 httpHeadWmHigh)).enable .relay EvBits.evRead

def httprRelayWriteCb (env : Env) (world : World) : World :=
  let client := world.client
  match client.state with
  | .httpr .recvRequestHeaders =>
      if client.httpr.firstline.isSome ∧ env.fails .httprFirstline then
        world.withClient (redsocksDropClient (client.log .httprWrite))
      else
        let started := client.modify .relay (·.write (client.httpr.firstline.getD []))
        let auth := world.auth.count
        match httprCredentials env world.config auth client.httpr.firstline with
        | .error message =>
            { world with auth := auth, client := redsocksDropClient (started.log message) }
        | .ok credentials =>
            { world with
              auth := auth
              client := httprSendRequest env started credentials auth.lastAuthQuery }
  | .httpr .new => world.withClient client.assertFail
  | .httpr _ => world
  | _ => world.withClient client.assertFail

def fmtHttpHost (address : SockaddrIn) : Bytes :=
  if address.port = 80 then inetNtoa address else hostPort address

/-- The first line with its URI made absolute; `none` is the failure return. -/
def httprTossHttpFirstline (env : Env) (httpr : HttprClient) (address : SockaddrIn) :
    Except (List LogMsg) Bytes :=
  let line := httpr.firstline.getD []
  let host := if httpr.hasHost then httpr.host.getD [] else fmtHttpHost address
  match strchr line 32 with
  | none => .error [.tossFirstline, .malformedRequest]
  | some found =>
      if env.fails .httprToss then .error [.tossFirstline]
      else .ok (line.takeWhile (· ≠ 32) ++ [32] ++ ascii "http://" ++ host ++ found.drop 1 ++ crlf)

/-- The variables of `httpr_client_read_cb` that its loop changes. -/
structure HttprRead where
  httpr : HttprClient
  connectRelay : Bool
  doDrop : Bool
  logs : List LogMsg
deriving DecidableEq, Repr

/-- `httpr_append_header`, with `do_drop` set on failure. -/
def HttprRead.append (env : Env) (read : HttprRead) (line : Bytes) : HttprRead :=
  if env.fails .httprAppend then { read with doDrop := true }
  else { read with httpr := { read.httpr with
    clientBuffer := httprAddLine read.httpr.clientBuffer line } }

def HttprRead.toss (env : Env) (read : HttprRead) (address : SockaddrIn) : HttprRead :=
  if read.httpr.firstline.isNone then { read with doDrop := true }
  else match httprTossHttpFirstline env read.httpr address with
    | .error logs => { read with doDrop := true, logs := logs ++ read.logs }
    | .ok line => { read with httpr := { read.httpr with firstline := some line } }

def HttprRead.finish (env : Env) (read : HttprRead) (address : SockaddrIn) : HttprRead :=
  let tossed := read.toss env address
  let hosted :=
    if tossed.httpr.hasHost then tossed
    else tossed.append env (ascii "Host: " ++ fmtHttpHost address)
  let closed := (hosted.append env (ascii "Proxy-Connection: close")).append env
    (ascii "Connection: close")
  { closed.append env [] with connectRelay := true }

def HttprRead.line (env : Env) (address : SockaddrIn) (read : HttprRead) (line : Bytes) : HttprRead :=
  if line.isEmpty then read.finish env address
  else if read.httpr.firstline.isNone then
    { read with httpr := { read.httpr with firstline := some line } }
  else if strncasecmpEq line (ascii "Host") 4 then
    { read with httpr := { read.httpr with
      hasHost := true, host := some ((line.drop 5).dropWhile isspace) } }.append env line
  else if strncasecmpEq line (ascii "Proxy-Connection") 16 then read
  else if strncasecmpEq line (ascii "Connection") 10 then read
  else read.append env line

def HttprRead.isDone (read : HttprRead) : Bool :=
  read.connectRelay || read.doDrop

/-- `state >= httpr_request_sent` -/
def State.httprRequestSent : State → Bool
  | .httpr .requestSent | .httpr .replyCame | .httpr .headersSkipped => true
  | _ => false

/-- The loop over 64 KiB pieces reads the whole input; the pieces are joined again where they go. -/
def httprClientReadContent (env : Env) (client : Client) : Client :=
  let data := client.client.input
  if env.fails .contentAlloc then redsocksDropClient (client.log .outOfMemory)
  else if env.fails .contentRemove then redsocksDropClient (client.log .evbufferRemove)
  else
    let kept := { client.setInput .client [] with
      httpr := { client.httpr with clientBuffer := client.httpr.clientBuffer ++ data } }
    if data.isEmpty || !(kept.relayOpen && kept.state.httprRequestSent) then kept
    else if env.fails .contentWrite then redsocksDropClient (kept.log .contentWrite)
    else kept.modify .relay (·.write data)

def httprClientReadCb (env : Env) (client : Client) : Client :=
  match client.state with
  | .httpr .new =>
      let (read, rest) := redsocksEvbufferReadline.drain (HttprRead.line env client.destaddr)
        HttprRead.isDone
        { httpr := client.httpr, connectRelay := false, doDrop := false, logs := [] }
        client.client.input
      let taken := { client.setInput .client rest with
        httpr := read.httpr, trace := read.logs.map Call.log ++ client.trace }
      if read.doDrop then redsocksDropClient taken
      else if read.connectRelay then
        redsocksConnectRelay env
          (httprClientReadContent env { taken with state := .httpr .recvRequestHeaders })
      else taken
  | .httpr _ => httprClientReadContent env client
  | _ => client

def httprConnectRelay (env : Env) (client : Client) : Client :=
  let reading := (client.modify .client fun buffer => { buffer with readcb := .httprClient }).enable
    .client EvBits.evRead
  if env.fails .httprEnable then redsocksDropClient (reading.log .acceptEnableFailed) else reading

end ProxySet
