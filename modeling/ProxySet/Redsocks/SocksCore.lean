import ProxySet.Redsocks.ClientCore

/-!
`socks4.c` and `socks5.c`.  Replies are packed structures, so a reply read whole
is matched field by field.
-/

namespace ProxySet

structure Config where
  login : Option Bytes
  password : Option Bytes
deriving DecidableEq, Repr

def SockaddrIn.addrBytes (address : SockaddrIn) : Bytes :=
  [address.a, address.b, address.c, address.d]

def SockaddrIn.portBytes (address : SockaddrIn) : Bytes :=
  [(address.port >>> 8).toUInt8, address.port.toUInt8]

def socks4Mkconnect (config : Config) (client : Client) : Bytes :=
  [4, 1] ++ client.destaddr.portBytes ++ client.destaddr.addrBytes ++
    config.login.getD [] ++ [0]

def socks4ReadCb (env : Env) (client : Client) : Client :=
  match client.state with
  | .socks4 .requestSent =>
      match redsocksReadExpected client sizesGreaterEqual 8 with
      | (none, dropped) => dropped
      | (some reply, read) =>
          let came := { read with state := .socks4 .replyCame }
          if reply.getD 0 0 ≠ 0 then redsocksDropClient (came.log .socks4Version)
          else if reply.getD 1 0 = 90 then redsocksStartRelay env came
          else redsocksDropClient (came.log (.socks4Status (reply.getD 1 0)))
  | .socks4 .replyCame => client
  | _ => client.assertFail

def socks4WriteCb (env : Env) (config : Config) (client : Client) : Client :=
  match client.state with
  | .socks4 .new =>
      redsocksWriteHelper env client (.make env (socks4Mkconnect config client))
        (.socks4 .requestSent) 8
  | .socks4 _ => client.disable .relay EvBits.evWrite
  | _ => client

def socks5IsValidCred (login password : Option Bytes) : Bool :=
  match login, password with
  | some login, some password => decide (login.length ≤ 255) && decide (password.length ≤ 255)
  | _, _ => false

def socks5MkmethodsPlain (doPassword : Bool) : Bytes :=
  if doPassword then [5, 2, 0, 2] else [5, 1, 0]

def socks5MkpasswordPlain (login password : Bytes) : Bytes :=
  [1] ++ [login.length.toUInt8] ++ login ++ [password.length.toUInt8] ++ password

def socks5MkcommandPlain (command : UInt8) (address : SockaddrIn) : Bytes :=
  [5, command, 0, 1] ++ address.addrBytes ++ address.portBytes

def socks5Mkconnect (client : Client) : Bytes :=
  socks5MkcommandPlain 1 client.destaddr

def socks5WriteCb (env : Env) (client : Client) : Client :=
  match client.state with
  | .socks5 .new =>
      redsocksWriteHelper env client
        (.make env (socks5MkmethodsPlain client.socks5.doPassword)) (.socks5 .methodSent) 2
  | _ => client

def socks5IsKnownAuthMethod (version method : UInt8) (doPassword : Bool) : Option String :=
  if version ≠ 5 then some "Socks5 server reported unexpected auth methods reply version..."
  else if method = 0xff then some "Socks5 server refused all our auth methods."
  else if method ≠ 0 ∧ ¬(method = 2 ∧ doPassword) then
    some "Socks5 server requested unexpected auth method..."
  else none

def socks5ReadAuthMethods (env : Env) (config : Config) (client : Client) : Client :=
  match redsocksReadExpected client sizesEqual 2 with
  | (none, dropped) => dropped
  | (some reply, read) =>
      let method := reply.getD 1 0
      match socks5IsKnownAuthMethod (reply.getD 0 0) method read.socks5.doPassword with
      | some error => redsocksDropClient (read.log (.socks5Method error))
      | none =>
          if method = 0 then
            redsocksWriteHelper env read (.make env (socks5Mkconnect read)) (.socks5 .requestSent) 4
          else if method = 2 then
            redsocksWriteHelper env read
              (.make env (socks5MkpasswordPlain (config.login.getD []) (config.password.getD [])))
              (.socks5 .authSent) 2
          else read

def socks5ReadAuthReply (env : Env) (client : Client) : Client :=
  match redsocksReadExpected client sizesEqual 2 with
  | (none, dropped) => dropped
  | (some reply, read) =>
      if reply.getD 0 0 ≠ 1 then redsocksDropClient (read.log .socks5AuthVersion)
      else if reply.getD 1 0 = 0 then
        redsocksWriteHelper env read (.make env (socks5Mkconnect read)) (.socks5 .requestSent) 4
      else redsocksDropClient read

def socks5ReadReply (env : Env) (client : Client) : Client :=
  match redsocksReadExpected client sizesGreaterEqual 4 with
  | (none, dropped) => dropped
  | (some reply, read) =>
      let skip := fun count : Nat => { read with socks5 := { read.socks5 with toSkip := count } }
      if reply.getD 0 0 ≠ 5 then redsocksDropClient (read.log .socks5ReplyVersion)
      else if reply.getD 1 0 = 0 then
        if reply.getD 3 0 = 1 then
          redsocksWriteHelper env (skip 6) .noMaker (.socks5 .skipAddress) 6
        else if reply.getD 3 0 = 4 then
          redsocksWriteHelper env (skip 18) .noMaker (.socks5 .skipAddress) 18
        else if reply.getD 3 0 = 3 then
          redsocksWriteHelper env read .noMaker (.socks5 .skipDomain) 1
        else redsocksDropClient (read.log .socks5AddressType)
      else redsocksDropClient (read.log (.socks5Status (reply.getD 1 0)))

def socks5ReadCb (env : Env) (config : Config) (client : Client) : Client :=
  match client.state with
  | .socks5 .methodSent => socks5ReadAuthMethods env config client
  | .socks5 .authSent => socks5ReadAuthReply env client
  | .socks5 .requestSent => socks5ReadReply env client
  | .socks5 .skipDomain =>
      match redsocksReadExpected client sizesGreaterEqual 1 with
      | (none, dropped) => dropped
      | (some size, read) =>
          let toSkip := (size.getD 0 0).toNat + 2
          redsocksWriteHelper env { read with socks5 := { read.socks5 with toSkip := toSkip } }
            .noMaker (.socks5 .skipAddress) toSkip
  | .socks5 .skipAddress =>
      match redsocksReadExpected client sizesGreaterEqual client.socks5.toSkip with
      | (none, dropped) => dropped
      | (some _, read) => redsocksStartRelay env read
  | _ => redsocksDropClient client

end ProxySet
