import Mathlib.Data.List.DropRight
import Mathlib.Data.List.Lex
import ProxySet.Lib.SortedSearch
import ProxySet.Lib.TextReplace
import ProxySet.Redsocks.TextCore

/-!
`ProxyDroidService` from the extras of its intent to the scripts that it hands to
the root shell, with the helpers of `Utils`, `Profile` and `AppManager` that it
calls.  Strings are the bytes that are written for them.
-/

namespace ProxySet.Droid

open TextReplace SortedSearch

/-! ### Utils -/

def base : Bytes := ascii "/data/data/org.proxydroid/"

def preserve : Bytes → Bytes
  | [] => []
  | c :: rest =>
      if c = 92 ∨ c = 36 ∨ c = 96 ∨ c = 34 then 92 :: c :: preserve rest else c :: preserve rest

inductive Iptables where
  | default
  | alternative
  | fromPath
  deriving DecidableEq

def Iptables.path : Iptables → Bytes
  | .default => ascii "/data/data/org.proxydroid/iptables"
  | .alternative => ascii "/system/bin/iptables"
  | .fromPath => ascii "iptables"

/-! ### Profile -/

def isDigits (most : Nat) (text : Bytes) : Bool :=
  decide (1 ≤ text.length) && decide (text.length ≤ most) && text.all isdigit

def isDottedQuad (text : Bytes) : Bool :=
  match text.splitOn 46 with
  | [a, b, c, d] => isDigits 3 a && isDigits 3 b && isDigits 3 c && isDigits 3 d
  | _ => false

def isDottedRange (text : Bytes) : Bool :=
  match text.splitOn 47 with
  | [quad, bits] => isDottedQuad quad && isDigits 2 bits
  | _ => false

/-- `getHostAddress` is what `InetAddress.getByName(ia).getHostAddress()` gives, if anything. -/
def validateAddr (getHostAddress : Bytes → Option Bytes) (ia : Bytes) : Option Bytes :=
  if isDottedRange ia || isDottedQuad ia then some ia
  else (getHostAddress ia).filter isDottedQuad

/-- `split("\\|")` of a text that is not empty, which drops the empty strings at the end. -/
def splitBars (text : Bytes) : List Bytes :=
  (text.splitOn 124).rdropWhile List.isEmpty

def splitList (text : Bytes) : List Bytes :=
  if text = [] then [[]] else splitBars text

def decodeAddrs (getHostAddress : Bytes → Option Bytes) (addrs : Bytes) : List Bytes :=
  (splitList addrs).filterMap (validateAddr getHostAddress)

/-! ### AppManager -/

structure ApplicationInfo where
  uid : Nat
  packageName : Option Bytes
  deriving DecidableEq

structure PackageManager where
  installed : List ApplicationInfo
  nameForUid : Nat → Bytes

def barTokens (text : Bytes) : List Bytes :=
  (text.splitOn 124).filter fun token => !token.isEmpty

def comparesLe (first second : Bytes) : Bool :=
  decide (first.map UInt8.toNat ≤ second.map UInt8.toNat)

def isSelected (tordAppString username : Bytes) : Bool :=
  let tordApps := (barTokens tordAppString).mergeSort comparesLe
  (search comparesLe tordApps username).isSome

def isProxyed (packages : PackageManager) (tordAppString : Bytes) (self : Bool)
    (aInfo : ApplicationInfo) : Bool :=
  if aInfo.packageName = some (ascii "org.proxydroid") then self
  else isSelected tordAppString (packages.nameForUid aInfo.uid)

def getProxyedApps (packages : PackageManager) (tordAppString : Bytes) (self : Bool) : List Nat :=
  (packages.installed.filter fun aInfo =>
    decide (10000 ≤ aInfo.uid) && isProxyed packages tordAppString self aInfo).map (·.uid)

/-! ### The service -/

inductive ProxyType where
  | http
  | https
  | httpTunnel
  | socks4
  | socks5
  | spdy
  deriving DecidableEq

def ProxyType.text : ProxyType → Bytes
  | .http => ascii "http"
  | .https => ascii "https"
  | .httpTunnel => ascii "http-tunnel"
  | .socks4 => ascii "socks4"
  | .socks5 => ascii "socks5"
  | .spdy => ascii "spdy"

/-- The extras of the intent; the host is the address that `getAddress` puts in its place. -/
structure Bundle where
  host : Bytes
  port : Nat
  bypassAddrs : Option Bytes
  proxyType : ProxyType
  user : Bytes
  password : Bytes
  domain : Bytes
  certificate : Bytes
  isAuth : Bool
  isNTLM : Bool
  isDNSProxy : Bool
  isAutoSetProxy : Bool
  isBypassApps : Bool

structure Service where
  host : Bytes
  port : Nat
  bypassAddrs : Option Bytes
  user : Bytes
  password : Bytes
  domain : Bytes
  proxyType : ProxyType
  certificate : Bytes
  auth : Bytes
  isAuth : Bool
  isNTLM : Bool
  isDNSProxy : Bool
  isAutoSetProxy : Bool
  isBypassApps : Bool
  apps : List Nat

/-- What a service that has just been created keeps of its first intent. -/
def onStart (bundle : Bundle) : Service where
  host := bundle.host
  port := bundle.port
  bypassAddrs := bundle.bypassAddrs
  user := if bundle.isAuth then bundle.user else []
  password := if bundle.isAuth then bundle.password else []
  domain := if bundle.isNTLM then bundle.domain else []
  proxyType := bundle.proxyType
  certificate := bundle.certificate
  auth := if bundle.isAuth then ascii "true" else ascii "false"
  isAuth := bundle.isAuth
  isNTLM := bundle.isNTLM
  isDNSProxy := bundle.isDNSProxy
  isAutoSetProxy := bundle.isAutoSetProxy
  isBypassApps := bundle.isBypassApps
  apps := []

structure Device where
  getHostAddress : Bytes → Option Bytes
  packages : PackageManager
  /-- The stored preference of `AppManager`. -/
  tordAppString : Bytes
  hasRedirectSupport : Bool
  iptables : Iptables
  /-- The port that `DNSProxy.init` has bound. -/
  dnsPort : Nat

inductive Effect where
  | writeFile (path content : Bytes)
  | runCommand (script : Bytes)
  | runRootCommand (script : Bytes)
  deriving DecidableEq

def Effect.rootScript : Effect → Option Bytes
  | .runRootCommand script => some script
  | _ => none

/-! ### The rules -/

def cmdIptablesReturn : Bytes :=
  ascii "iptables -t nat -A OUTPUT -p tcp -d 0.0.0.0 -j RETURN\n"

def cmdIptablesRedirectAddHttp : Bytes :=
  ascii "iptables -t nat -A OUTPUT -p tcp --dport 80 -j REDIRECT --to 8123\n" ++
    ascii "iptables -t nat -A OUTPUT -p tcp --dport 443 -j REDIRECT --to 8124\n" ++
    ascii "iptables -t nat -A OUTPUT -p tcp --dport 5228 -j REDIRECT --to 8124\n"

def cmdIptablesDnatAddHttp : Bytes :=
  ascii "iptables -t nat -A OUTPUT -p tcp --dport 80 -j DNAT --to-destination 127.0.0.1:8123\n" ++
    ascii "iptables -t nat -A OUTPUT -p tcp --dport 443 -j DNAT --to-destination 127.0.0.1:8124\n" ++
    ascii "iptables -t nat -A OUTPUT -p tcp --dport 5228 -j DNAT --to-destination 127.0.0.1:8124\n"

def cmdIptablesRedirectAddHttpTunnel : Bytes :=
  ascii "iptables -t nat -A OUTPUT -p tcp --dport 80 -j REDIRECT --to 8123\n" ++
    ascii "iptables -t nat -A OUTPUT -p tcp --dport 443 -j REDIRECT --to 8123\n" ++
    ascii "iptables -t nat -A OUTPUT -p tcp --dport 5228 -j REDIRECT --to 8123\n"

def cmdIptablesDnatAddHttpTunnel : Bytes :=
  ascii "iptables -t nat -A OUTPUT -p tcp --dport 80 -j DNAT --to-destination 127.0.0.1:8123\n" ++
    ascii "iptables -t nat -A OUTPUT -p tcp --dport 443 -j DNAT --to-destination 127.0.0.1:8123\n" ++
    ascii "iptables -t nat -A OUTPUT -p tcp --dport 5228 -j DNAT --to-destination 127.0.0.1:8123\n"

def cmdIptablesRedirectAddSocks : Bytes :=
  ascii "iptables -t nat -A OUTPUT -p tcp -j REDIRECT --to 8123\n"

def cmdIptablesDnatAddSocks : Bytes :=
  ascii "iptables -t nat -A OUTPUT -p tcp -j DNAT --to-destination 127.0.0.1:8123\n"

def redirectCmd : ProxyType → Bytes
  | .socks4 => cmdIptablesRedirectAddSocks
  | .socks5 => cmdIptablesRedirectAddSocks
  | .httpTunnel => cmdIptablesRedirectAddHttpTunnel
  | _ => cmdIptablesRedirectAddHttp

def dnatCmd : ProxyType → Bytes
  | .socks4 => cmdIptablesDnatAddSocks
  | .socks5 => cmdIptablesDnatAddSocks
  | .httpTunnel => cmdIptablesDnatAddHttpTunnel
  | _ => cmdIptablesDnatAddHttp

def forwardCmd (device : Device) (proxyType : ProxyType) : Bytes :=
  if device.hasRedirectSupport then redirectCmd proxyType else dnatCmd proxyType

def dnsCmd (device : Device) : Bytes :=
  if device.hasRedirectSupport then
    ascii "iptables -t nat -A OUTPUT -p udp --dport 53 -j REDIRECT --to " ++
      decimal device.dnsPort ++ ascii "\n"
  else
    ascii "iptables -t nat -A OUTPUT -p udp --dport 53 -j DNAT --to-destination 127.0.0.1:" ++
      decimal device.dnsPort ++ ascii "\n"

def returnCmd (addr : Bytes) : Bytes :=
  replace (ascii "0.0.0.0") addr cmdIptablesReturn

def ownerCmd (uid : Nat) (cmd : Bytes) : Bytes :=
  replace (ascii "-t nat") (ascii "-t nat -m owner --uid-owner " ++ decimal uid) cmd

def returnAppCmd (uid : Nat) : Bytes :=
  ownerCmd uid (replace (ascii "-d 0.0.0.0") [] cmdIptablesReturn)

def bypassed (device : Device) (bypassAddrs : Option Bytes) : List Bytes :=
  match bypassAddrs with
  | none => []
  | some addrs => if addrs = [] then [] else decodeAddrs device.getHostAddress addrs

/-- The field `apps`, read from the `AppManager` unless it has been read before. -/
def loadApps (device : Device) (apps : List Nat) (self : Bool) : List Nat :=
  if apps = [] then getProxyedApps device.packages device.tordAppString self else apps

def cmd (device : Device) (service : Service) (proxyType : ProxyType) : Bytes :=
  (if service.isDNSProxy then dnsCmd device else []) ++
  returnCmd service.host ++
  (bypassed device service.bypassAddrs).flatMap returnCmd ++
  (if service.isBypassApps then (loadApps device service.apps false).flatMap returnAppCmd else []) ++
  (if service.isAutoSetProxy || service.isBypassApps then forwardCmd device proxyType
    else (loadApps device service.apps true).flatMap fun uid =>
      ownerCmd uid (forwardCmd device proxyType))

def rules (device : Device) (service : Service) (proxyType : ProxyType) : Bytes :=
  replace (ascii "iptables") device.iptables.path (cmd device service proxyType)

/-! ### enableProxy -/

def stunnelConf (service : Service) : Bytes :=
  ascii "debug = 0\n" ++ ascii "client = yes\n" ++ ascii "pid = " ++ base ++
    ascii "stunnel.pid\n" ++ ascii "[https]\n" ++ ascii "sslVersion = all\n" ++
    ascii "accept = 127.0.0.1:8126\n" ++ ascii "connect = " ++ service.host ++ ascii ":" ++
    decimal service.port ++ ascii "\n" ++
    (if service.certificate.length = 0 then [] else ascii "cert = " ++ base ++ ascii "client.pem\n")

def stunnelEffects (service : Service) : List Effect :=
  [.writeFile (base ++ ascii "stunnel.conf") (stunnelConf service)] ++
  (if service.certificate.length = 0 then []
    else [.writeFile (base ++ ascii "client.pem") service.certificate,
      .runCommand (ascii "chmod 0600 " ++ base ++ ascii "client.pem")]) ++
  [.runRootCommand (base ++ ascii "stunnel " ++ base ++ ascii "stunnel.conf")]

def shrpxEffects (service : Service) : List Effect :=
  [.runRootCommand (base ++ ascii "shrpx -D -k -p -f 127.0.0.1,8126 -b " ++ service.host ++
    ascii "," ++ decimal service.port ++ ascii " --pid-file=" ++ base ++ ascii "shrpx.pid")]

structure Upstream where
  proxyHost : Bytes
  proxyPort : Nat
  proxyType : ProxyType
  deriving DecidableEq

def upstream (service : Service) : Upstream :=
  if service.proxyType = .https ∨ service.proxyType = .spdy then
    { proxyHost := ascii "127.0.0.1", proxyPort := 8126, proxyType := .http }
  else
    { proxyHost := service.host, proxyPort := service.port, proxyType := service.proxyType }

def tunnelEffects (service : Service) : List Effect :=
  match service.proxyType with
  | .https => stunnelEffects service
  | .spdy => shrpxEffects service
  | _ => []

def usesCntlm (service : Service) : Bool :=
  (upstream service).proxyType == .http && service.isAuth && service.isNTLM

def cntlmScript (service : Service) : Bytes :=
  base ++ ascii "proxy.sh start http 127.0.0.1 8025 false\n" ++ base ++
    ascii "cntlm -P " ++ base ++ ascii "cntlm.pid -l 8025 -u " ++ service.user ++
    (if service.domain = [] then ascii "@local" else ascii "@" ++ service.domain) ++
    ascii " -p " ++ service.password ++ ascii " " ++
    (upstream service).proxyHost ++ ascii ":" ++ decimal (upstream service).proxyPort ++ ascii "\n"

def proxyScript (service : Service) : Bytes :=
  base ++ ascii "proxy.sh start" ++ ascii " " ++ (upstream service).proxyType.text ++ ascii " " ++
    (upstream service).proxyHost ++ ascii " " ++ decimal (upstream service).proxyPort ++
    ascii " " ++ service.auth ++ ascii " \"" ++ preserve service.user ++ ascii "\" \"" ++
    preserve service.password ++ ascii "\""

def startScript (service : Service) : Bytes :=
  if usesCntlm service then cntlmScript service else proxyScript service

def enableProxy (device : Device) (service : Service) : List Effect :=
  tunnelEffects service ++
    [.runRootCommand (startScript service),
      .runRootCommand (rules device service (upstream service).proxyType)]

/-- The scripts that the root shell gets, in the order of the calls. -/
def rootScripts (device : Device) (bundle : Bundle) : List Bytes :=
  (enableProxy device (onStart bundle)).filterMap Effect.rootScript

end ProxySet.Droid
