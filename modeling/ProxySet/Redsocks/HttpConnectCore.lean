import ProxySet.Redsocks.HttpCore

/-! `http-connect.c` -/

namespace ProxySet

open TokenReader

def httpcSkipLine (state : HttpcState) (line : Bytes) : HttpcState :=
  if line.isEmpty then .headersSkipped else state

def httpcSkipDone (state : HttpcState) : Bool :=
  state != .replyCame

/-- The `while` loop of `httpc_read_cb` and what follows it. -/
def httpcSkipHeaders (env : Env) (client : Client) : Client :=
  let (state, rest) := redsocksEvbufferReadline.drain httpcSkipLine httpcSkipDone .replyCame
    client.relay.input
  let read := { client.setInput .relay rest with state := .httpc state }
  if state = .headersSkipped then redsocksStartRelay env read else read

def httpcReadCb (env : Env) (world : World) : World :=
  let client := world.client
  match client.state with
  | .httpc .requestSent =>
      match redsocksEvbufferReadline.next client.relay.input with
      | some (line, rest) =>
          let taken := client.setInput .relay rest
          match sscanfHttpStatus line with
          | some code =>
              if code = 407 then authRequired env (world.withClient taken) (.httpc .new)
              else if 200 ≤ code ∧ code ≤ 299 then
                world.withClient (httpcSkipHeaders env { taken with state := .httpc .replyCame })
              else world.withClient (redsocksDropClient (taken.log (.unexpectedReply line)))
          | none => world.withClient taken
      | none =>
          if httpHeadWmHigh ≤ client.relay.input.length then
            world.withClient (redsocksDropClient client)
          else world
  | .httpc .replyCame => world.withClient (httpcSkipHeaders env client)
  | .httpc .headersSkipped => world.withClient (redsocksStartRelay env client)
  | _ => world.withClient client.assertFail

def httpcCredentials (env : Env) (config : Config) (auth : HttpAuth) (address : SockaddrIn) :
    Option (Bytes × Bytes) :=
  match auth.lastAuthQuery with
  | none => none
  | some query =>
      if isBasic query then basicCredentials config
      else if isDigest query then
        digestCredentials env config query auth.lastAuthCount (ascii "CONNECT") (hostPort address)
      else none

def httpcMkconnect (client : Client) (credentials : Option (Bytes × Bytes)) : Bytes :=
  ascii "CONNECT " ++ hostPort client.destaddr ++ ascii " HTTP/1.0" ++ crlf ++
    (match credentials with
      | some (scheme, text) => authLine scheme text
      | none => []) ++ crlf

def httpcWriteCb (env : Env) (world : World) : World :=
  let client := world.client
  match client.state with
  | .httpc .new =>
      if env.fails .mkmessage then world.withClient (redsocksDropClient client)
      else
        let auth := world.auth.count
        let credentials := httpcCredentials env world.config auth client.destaddr
        let asked := client.call (.request (credentials.map Prod.snd) auth.lastAuthQuery)
        { world with
          auth := auth
          client := redsocksWriteHelperEx env asked (.made (httpcMkconnect client credentials))
            (.httpc .requestSent) 1 httpHeadWmHigh }
  | .httpc _ => world.withClient (client.disable .relay EvBits.evWrite)
  | _ => world

end ProxySet
