import ProxySet.Redsocks.HttpAuthCore
import ProxySet.Redsocks.SocksCore

/-!
What `http-connect.c` and `http-relay.c` share.  Both keep their authentication
record in the instance, so their callbacks work on the client together with that
record.
-/

namespace ProxySet

open TokenReader

def httpHeadWmHigh : Nat := 4096

/-- One client, the configuration of its instance, and the `http_auth` behind the instance. -/
structure World where
  config : Config
  auth : HttpAuth
  client : Client
deriving DecidableEq, Repr

@[simps]
def World.withClient (world : World) (client : Client) : World :=
  { world with client := client }

def Client.setInput (client : Client) (side : Side) (input : Bytes) : Client :=
  client.modify side fun buffer => { buffer with input := input }

inductive HeaderSearch where
  | searching
  | absent
  | found (line : Bytes)
deriving DecidableEq, Repr

def HeaderSearch.look (search : HeaderSearch) (line : Bytes) : HeaderSearch :=
  if line.isEmpty || (strchr line 58).isNone then .absent
  else if strncasecmpEq line authRequestHeader authRequestHeader.length then .found line
  else search

def HeaderSearch.isDone : HeaderSearch → Bool
  | .searching => false
  | _ => true

/-- The header line, if one comes before the lines run out, and what is left of the buffer. -/
def getAuthRequestHeader (buffer : Bytes) : Option Bytes × Bytes :=
  match redsocksEvbufferReadline.drain HeaderSearch.look HeaderSearch.isDone .searching buffer with
  | (.found line, rest) => (some line, rest)
  | (_, rest) => (none, rest)

def challengeOf (line : Bytes) : Bytes :=
  (line.drop authRequestHeader.length).dropWhile isspace

/-- The branch `code == 407` of both read callbacks; `retry` is the state they go back to. -/
def authRequired (env : Env) (world : World) (retry : State) : World :=
  let client := world.client
  if world.auth.lastAuthQuery.isSome ∧ world.auth.lastAuthCount = 1 then
    world.withClient (redsocksDropClient (client.log .proxyAuthFailed))
  else if world.config.login.isNone ∨ world.config.password.isNone then
    world.withClient (redsocksDropClient (client.log .noLogin))
  else match getAuthRequestHeader client.relay.input with
    | (none, rest) =>
        world.withClient (redsocksDropClient ((client.setInput .relay rest).log .noChallenge))
    | (some line, rest) =>
        let closed := ((client.setInput .relay rest).disable .relay EvBits.evWrite).call .closeRelay
        { world with
          auth := { lastAuthQuery := some (challengeOf line), lastAuthCount := 0 }
          client := redsocksConnectRelay env { closed with state := retry } }

def isBasic (query : Bytes) : Bool :=
  strncasecmpEq query (ascii "Basic") 5

def isDigest (query : Bytes) : Bool :=
  strncasecmpEq query (ascii "Digest") 6

/-- A challenge is stored only where login and password are set, so neither is `NULL` here. -/
def basicCredentials (config : Config) : Option (Bytes × Bytes) :=
  match config.login, config.password with
  | some login, some password =>
      (basicAuthenticationEncode login password).map fun text => (ascii "Basic", text)
  | _, _ => none

def digestCredentials (env : Env) (config : Config) (query : Bytes) (count : Nat)
    (method uri : Bytes) : Option (Bytes × Bytes) :=
  match config.login, config.password with
  | some login, some password =>
      (digestAuthenticationEncode (query.drop 7) login password method uri count
        (cnounce env)).map fun text => (ascii "Digest", text)
  | _, _ => none

def authLine (scheme text : Bytes) : Bytes :=
  authResponseHeader ++ [32] ++ scheme ++ [32] ++ text ++ crlf

def Call.asked : Call → Option (Option Bytes × Option Bytes)
  | .request credentials challenge => some (credentials, challenge)
  | _ => none

/-- The credentials in the last request, and the challenge stored when it was made. -/
def Client.lastRequest (client : Client) : Option (Option Bytes × Option Bytes) :=
  client.trace.findSome? Call.asked

/-- What an encoder makes of the login and the password for a challenge. -/
def Encoded (config : Config) (query scheme text : Bytes) : Prop :=
  isBasic query = true ∧ basicCredentials config = some (scheme, text) ∨
    isDigest query = true ∧ ∃ env count method uri,
      digestCredentials env config query count method uri = some (scheme, text)

def HttpAuth.count (auth : HttpAuth) : HttpAuth :=
  { auth with lastAuthCount := auth.lastAuthCount + 1 }

end ProxySet
