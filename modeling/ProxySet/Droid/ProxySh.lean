import ProxySet.Lib.ShellWords
import ProxySet.Redsocks.TextCore

/-!
The scripts `proxy.sh` of the two apps, as far as they write `redsocks.conf`, and
`redirect.sh`.  The texts stand as they do between the double quotes of the scripts.
-/

namespace ProxySet.Droid

open Shell

def doubleQuoted (text : Bytes) : Option Word :=
  match readCommands (34 :: (text ++ [34])) with
  | some [⟨[word], _⟩] => some word
  | _ => none

def echoWord (text : Bytes) : Option Word :=
  (doubleQuoted text).map (· ++ [.lit 10])

/-- `echo` of a quoted text, which prints its argument verbatim. -/
def echo (values : Bytes → Bytes) (text : Bytes) : Option Bytes :=
  (echoWord text).bind (expand values)

/-- The parameters that a start of `proxy.sh` assigns to its variables. -/
structure ProxyArgs where
  type : Bytes
  host : Bytes
  port : Bytes
  auth : Bytes
  user : Bytes
  pass : Bytes
  domain : Bytes

def ProxyArgs.values (args : ProxyArgs) (name : Bytes) : Bytes :=
  if name = ascii "host" then args.host
  else if name = ascii "port" then args.port
  else if name = ascii "user" then args.user
  else if name = ascii "pass" then args.pass
  else if name = ascii "domain" then args.domain
  else []

def writeConf (args : ProxyArgs) (base : Bytes) (more : Option Bytes) : Option Bytes :=
  (echo args.values base).bind fun first =>
    match more with
    | none => some first
    | some text => (echo args.values text).map (first ++ ·)

/-! ### ProxyDroid -/

def baseText : Bytes :=
  ascii "\nbase \x7b\n log_debug = off;\n log_info = off;\n log = stderr;\n" ++
    ascii " daemon = on;\n redirector = iptables;\n\x7d\n"

def httpTrueText : Bytes :=
  ascii "\nredsocks \x7b\n local_ip = 127.0.0.1;\n local_port = 8123;\n ip = $host;\n" ++
    ascii " port = $port;\n type = http-relay;\n login = \\\"$user\\\";\n" ++
    ascii " password = \\\"$pass\\\";\n\x7d \n" ++
    ascii "redsocks \x7b\n local_ip = 127.0.0.1;\n local_port = 8124;\n ip = $host;\n" ++
    ascii " port = $port;\n type = http-connect;\n login = \\\"$user\\\";\n" ++
    ascii " password = \\\"$pass\\\";\n\x7d \n"

def httpFalseText : Bytes :=
  ascii "\nredsocks \x7b\n local_ip = 127.0.0.1;\n local_port = 8123;\n ip = $host;\n" ++
    ascii " port = $port;\n type = http-relay;\n\x7d \n" ++
    ascii "redsocks \x7b\n local_ip = 127.0.0.1;\n local_port = 8124;\n ip = $host;\n" ++
    ascii " port = $port;\n type = http-connect;\n\x7d \n "

def socks5TrueText : Bytes :=
  ascii "\nredsocks \x7b\n local_ip = 127.0.0.1;\n local_port = 8123;\n ip = $host;\n" ++
    ascii " port = $port;\n type = socks5;\n login = \\\"$user\\\";\n" ++
    ascii " password = \\\"$pass\\\";\n \x7d\n "

def socks5FalseText : Bytes :=
  ascii "\nredsocks \x7b\n local_ip = 127.0.0.1;\n local_port = 8123;\n ip = $host;\n" ++
    ascii " port = $port;\n type = socks5;\n \x7d\n "

def socks4TrueText : Bytes :=
  ascii "\nredsocks \x7b\n local_ip = 127.0.0.1;\n local_port = 8123;\n ip = $host;\n" ++
    ascii " port = $port;\n type = socks4;\n login = \\\"$user\\\";\n" ++
    ascii " password = \\\"$pass\\\";\n \x7d\n "

def socks4FalseText : Bytes :=
  ascii "\nredsocks \x7b\n local_ip = 127.0.0.1;\n local_port = 8123;\n ip = $host;\n" ++
    ascii " port = $port;\n type = socks4;\n \x7d\n "

def caseAuth (auth onTrue onFalse : Bytes) : Option Bytes :=
  if auth = ascii "true" then some onTrue
  else if auth = ascii "false" then some onFalse
  else none

def droidText (type auth : Bytes) : Option Bytes :=
  if type = ascii "http" then caseAuth auth httpTrueText httpFalseText
  else if type = ascii "socks5" then caseAuth auth socks5TrueText socks5FalseText
  else if type = ascii "socks4" then caseAuth auth socks4TrueText socks4FalseText
  else none

/-- The configuration file behind `proxy.sh start` of ProxyDroid. -/
def droidProxySh (args : ProxyArgs) : Option Bytes :=
  writeConf args baseText (droidText args.type args.auth)

/-! ### The other app -/

def appHttpTrueText : Bytes :=
  ascii "\nredsocks \x7b\n local_ip = 127.0.0.1;\n local_port = 8123;\n ip = $host;\n" ++
    ascii " port = $port;\n type = http-relay;\n login = \\\"$user\\\";\n" ++
    ascii " password = \\\"$pass\\\";\n domain = \\\"$domain\\\";\n\x7d\n" ++
    ascii "redsocks \x7b\n local_ip = 127.0.0.1;\n local_port = 8124;\n ip = $host;\n" ++
    ascii " port = $port;\n type = http-connect;\n login = \\\"$user\\\";\n" ++
    ascii " password = \\\"$pass\\\";\n domain = \\\"$domain\\\";\n\x7d\n"

def appHttpFalseText : Bytes :=
  ascii "\nredsocks \x7b\n local_ip = 127.0.0.1;\n local_port = 8123;\n ip = $host;\n" ++
    ascii " port = $port;\n type = http-relay;\n\x7d\n" ++
    ascii "redsocks \x7b\n local_ip = 127.0.0.1;\n local_port = 8124;\n ip = $host;\n" ++
    ascii " port = $port;\n type = http-connect;\n\x7d\n "

def appSocksText : Bytes :=
  ascii "\nredsocks \x7b\n local_ip = 127.0.0.1;\n local_port = 8123;\n ip = $host;\n" ++
    ascii " port = $port;\n type = socks5;\n \x7d\n "

def appText (type auth : Bytes) : Option Bytes :=
  if type = ascii "http" then caseAuth auth appHttpTrueText appHttpFalseText
  else if type = ascii "socks" then some appSocksText
  else none

def appProxySh (args : ProxyArgs) : Option Bytes :=
  writeConf args baseText (appText args.type args.auth)

def redirectSh (type : Bytes) : Bytes :=
  if type = ascii "http" then
    ascii "   iptables -t nat -A OUTPUT -p tcp --dport 80 -j REDIRECT --to 8123\n" ++
      ascii "   iptables -t nat -A OUTPUT -p tcp --dport 443 -j REDIRECT --to 8124\n" ++
      ascii "   iptables -t nat -A OUTPUT -p tcp --dport 5228 -j REDIRECT --to 8124\n"
  else if type = ascii "socks" then
    ascii "   iptables -t nat -A OUTPUT -p tcp -j REDIRECT --to 8123\n"
  else []

end ProxySet.Droid
