import ProxySet.Redsocks.ParserCore

/-!
The sections that `main` registers with the parser in the Android build, with the
variables that their entries write to.
-/

namespace ProxySet

/-- `base_instance`, as far as the configuration file sets it. -/
structure BaseConfig where
  configured : Bool
  chroot : Option Bytes
  user : Option Bytes
  group : Option Bytes
  redirectorName : Option Bytes
  logName : Option Bytes
  logDebug : Bool
  logInfo : Bool
  daemon : Bool
  tcpKeepaliveTime : Nat
  tcpKeepaliveProbes : Nat
  tcpKeepaliveIntvl : Nat
  deriving DecidableEq

def BaseConfig.zero : BaseConfig where
  configured := false
  chroot := none
  user := none
  group := none
  redirectorName := none
  logName := none
  logDebug := false
  logInfo := false
  daemon := false
  tcpKeepaliveTime := 0
  tcpKeepaliveProbes := 0
  tcpKeepaliveIntvl := 0

structure RedsocksConfig where
  bindAddr : Nat
  bindPort : Nat
  relayAddr : Nat
  relayPort : Nat
  type : Option Bytes
  login : Option Bytes
  password : Option Bytes
  listenq : Nat
  minBackoffMs : Nat
  maxBackoffMs : Nat
  deriving DecidableEq

def inaddrLoopback : Nat := 0x7F000001

def somaxconn : Nat := 128

def RedsocksConfig.fresh : RedsocksConfig where
  bindAddr := inaddrLoopback
  bindPort := 0
  relayAddr := inaddrLoopback
  relayPort := 0
  type := none
  login := none
  password := none
  listenq := somaxconn
  minBackoffMs := 100
  maxBackoffMs := 60000

structure DnstcConfig where
  bindAddr : Nat
  bindPort : Nat
  deriving DecidableEq

/-- The data of the sections that may be open, and what the closed ones have left. -/
structure ConfigMemory where
  base : BaseConfig
  redsocks : RedsocksConfig
  instances : List RedsocksConfig
  dnstc : DnstcConfig
  dnstcInstances : List DnstcConfig
  deriving DecidableEq

def ConfigMemory.start : ConfigMemory where
  base := .zero
  redsocks := .fresh
  instances := []
  dnstc := ⟨inaddrLoopback, 0⟩
  dnstcInstances := []

/-! ### Entries -/

def pcharEntry (key : Bytes) (store : Bytes → ConfigMemory → ConfigMemory) :
    ParserEntry ConfigMemory where
  key := key
  type := .pchar
  store := fun value memory => match value with
    | .pchar text => store text memory
    | _ => memory

def boolEntry (key : Bytes) (store : Bool → ConfigMemory → ConfigMemory) :
    ParserEntry ConfigMemory where
  key := key
  type := .bool
  store := fun value memory => match value with
    | .bool flag => store flag memory
    | _ => memory

def uint16Entry (key : Bytes) (store : Nat → ConfigMemory → ConfigMemory) :
    ParserEntry ConfigMemory where
  key := key
  type := .uint16
  store := fun value memory => match value with
    | .uint16 number => store number memory
    | _ => memory

def inAddrEntry (key : Bytes) (store : Nat → ConfigMemory → ConfigMemory) :
    ParserEntry ConfigMemory where
  key := key
  type := .inAddr
  store := fun value memory => match value with
    | .inAddr address => store address memory
    | _ => memory

namespace ConfigMemory

def setBase (change : BaseConfig → BaseConfig) (memory : ConfigMemory) : ConfigMemory :=
  { memory with base := change memory.base }

def setRedsocks (change : RedsocksConfig → RedsocksConfig) (memory : ConfigMemory) :
    ConfigMemory :=
  { memory with redsocks := change memory.redsocks }

def setDnstc (change : DnstcConfig → DnstcConfig) (memory : ConfigMemory) : ConfigMemory :=
  { memory with dnstc := change memory.dnstc }

end ConfigMemory

open ConfigMemory

def baseEntries : List (ParserEntry ConfigMemory) :=
  [pcharEntry (ascii "chroot") fun text => setBase ({ · with chroot := some text }),
    pcharEntry (ascii "user") fun text => setBase ({ · with user := some text }),
    pcharEntry (ascii "group") fun text => setBase ({ · with group := some text }),
    pcharEntry (ascii "redirector") fun text => setBase ({ · with redirectorName := some text }),
    pcharEntry (ascii "log") fun text => setBase ({ · with logName := some text }),
    boolEntry (ascii "log_debug") fun flag => setBase ({ · with logDebug := flag }),
    boolEntry (ascii "log_info") fun flag => setBase ({ · with logInfo := flag }),
    boolEntry (ascii "daemon") fun flag => setBase ({ · with daemon := flag }),
    uint16Entry (ascii "tcp_keepalive_time") fun number =>
      setBase ({ · with tcpKeepaliveTime := number }),
    uint16Entry (ascii "tcp_keepalive_probes") fun number =>
      setBase ({ · with tcpKeepaliveProbes := number }),
    uint16Entry (ascii "tcp_keepalive_intvl") fun number =>
      setBase ({ · with tcpKeepaliveIntvl := number })]

def redsocksEntries : List (ParserEntry ConfigMemory) :=
  [inAddrEntry (ascii "local_ip") fun address => setRedsocks ({ · with bindAddr := address }),
    uint16Entry (ascii "local_port") fun number => setRedsocks ({ · with bindPort := number }),
    inAddrEntry (ascii "ip") fun address => setRedsocks ({ · with relayAddr := address }),
    uint16Entry (ascii "port") fun number => setRedsocks ({ · with relayPort := number }),
    pcharEntry (ascii "type") fun text => setRedsocks ({ · with type := some text }),
    pcharEntry (ascii "login") fun text => setRedsocks ({ · with login := some text }),
    pcharEntry (ascii "password") fun text => setRedsocks ({ · with password := some text }),
    uint16Entry (ascii "listenq") fun number => setRedsocks ({ · with listenq := number }),
    uint16Entry (ascii "min_accept_backoff") fun number =>
      setRedsocks ({ · with minBackoffMs := number }),
    uint16Entry (ascii "max_accept_backoff") fun number =>
      setRedsocks ({ · with maxBackoffMs := number })]

def dnstcEntries : List (ParserEntry ConfigMemory) :=
  [inAddrEntry (ascii "local_ip") fun address => setDnstc ({ · with bindAddr := address }),
    uint16Entry (ascii "local_port") fun number => setDnstc ({ · with bindPort := number })]

/-! ### Sections -/

def baseOnenter (memory : ConfigMemory) : Except Bytes ConfigMemory :=
  if memory.base.configured then .error (ascii "only one instance of base is valid")
  else .ok { memory with base := .zero }

def redirectorNames : List Bytes := [ascii "iptables", ascii "generic"]

def baseOnexit (memory : ConfigMemory) : Except Bytes ConfigMemory :=
  match memory.base.redirectorName with
  | none => .error (ascii "no `redirector` set")
  | some name =>
      if name ∈ redirectorNames then .ok (memory.setBase ({ · with configured := true }))
      else .error (ascii "invalid `redirector` set")

def redsocksOnenter (memory : ConfigMemory) : Except Bytes ConfigMemory :=
  .ok { memory with redsocks := .fresh }

def relaySubsystems : List Bytes :=
  [ascii "http-connect", ascii "http-relay", ascii "socks4", ascii "socks5"]

/-- What stops the program may leave behind is not kept, the instance included. -/
def redsocksOnexit (memory : ConfigMemory) : Except Bytes ConfigMemory :=
  match memory.redsocks.type with
  | none => .error (ascii "no `type` for redsocks")
  | some type =>
      if type ∉ relaySubsystems then .error (ascii "invalid `type` for redsocks")
      else if memory.redsocks.minBackoffMs = 0 then
        .error (ascii "`min_accept_backoff` must be positive, 0 ms is too low")
      else if memory.redsocks.maxBackoffMs = 0 then
        .error (ascii "`max_accept_backoff` must be positive, 0 ms is too low")
      else if ¬memory.redsocks.minBackoffMs < memory.redsocks.maxBackoffMs then
        .error (ascii "`min_accept_backoff` must be less than `max_accept_backoff`")
      else .ok { memory with instances := memory.redsocks :: memory.instances }

def dnstcOnenter (memory : ConfigMemory) : Except Bytes ConfigMemory :=
  .ok { memory with dnstc := ⟨inaddrLoopback, 0⟩ }

def dnstcOnexit (memory : ConfigMemory) : Except Bytes ConfigMemory :=
  .ok { memory with dnstcInstances := memory.dnstc :: memory.dnstcInstances }

def baseSection : ParserSection ConfigMemory where
  name := ascii "base"
  onenter := some baseOnenter
  onexit := some baseOnexit
  entries := baseEntries

def redsocksSection : ParserSection ConfigMemory where
  name := ascii "redsocks"
  onenter := some redsocksOnenter
  onexit := some redsocksOnexit
  entries := redsocksEntries

def dnstcSection : ParserSection ConfigMemory where
  name := ascii "dnstc"
  onenter := some dnstcOnenter
  onexit := some dnstcOnexit
  entries := dnstcEntries

/-- `parser_add_section` puts a section in front of the others. -/
def configSections : List (ParserSection ConfigMemory) :=
  [dnstcSection, baseSection, redsocksSection]

end ProxySet
