import ProxySet.Lib.FirstMatch
import ProxySet.Lib.ShellWords
import ProxySet.Redsocks.Numbers

/-!
What a script of `iptables` commands puts into the OUTPUT chain of an empty nat
table, and what that chain does to an outgoing TCP packet.
-/

namespace ProxySet.Droid

open Shell FirstMatch

inductive Protocol where
  | tcp
  | udp
  deriving DecidableEq

structure Range where
  address : Nat
  bits : Nat
  bounded : bits ≤ 32
  deriving DecidableEq

def Range.contains (range : Range) (address : Nat) : Bool :=
  address / 2 ^ (32 - range.bits) == range.address / 2 ^ (32 - range.bits)

inductive Target where
  | return
  | redirect (port : Nat)
  | dnat (address port : Nat)
  deriving DecidableEq

structure Rule where
  protocol : Option Protocol
  destination : Option Range
  dport : Option Nat
  uid : Option Nat
  target : Target
  deriving DecidableEq

structure Packet where
  uid : Nat
  destination : Ipv4
  port : Nat
  deriving DecidableEq

inductive Verdict where
  | unmodified
  | sentTo (address port : Nat)
  deriving DecidableEq

def loopback : Ipv4 := ⟨127, 0, 0, 1⟩

/-- `REDIRECT` sends what the device itself has sent to its loopback address. -/
def Target.verdict : Target → Verdict
  | .return => .unmodified
  | .redirect port => .sentTo loopback.value port
  | .dnat address port => .sentTo address port

def Rule.covers (rule : Rule) (packet : Packet) : Bool :=
  rule.protocol != some .udp &&
    rule.destination.all (·.contains packet.destination.value) &&
    rule.dport.all (· == packet.port) && rule.uid.all (· == packet.uid)

def verdictOf (chain : List Rule) (packet : Packet) : Verdict :=
  firstMatch Rule.covers (·.target.verdict) .unmodified chain packet

/-! ### The command line -/

inductive Flag where
  | table
  | append
  | protocol
  | destination
  | extension
  | uidOwner
  | dport
  | jump
  | toPorts
  | toDestination
  deriving DecidableEq

def readFlag (word : Bytes) : Option Flag :=
  if word = ascii "-t" then some .table
  else if word = ascii "-A" then some .append
  else if word = ascii "-p" then some .protocol
  else if word = ascii "-d" then some .destination
  else if word = ascii "-m" then some .extension
  else if word = ascii "--uid-owner" then some .uidOwner
  else if word = ascii "--dport" then some .dport
  else if word = ascii "-j" then some .jump
  else if word = ascii "--to" then some .toPorts
  else if word = ascii "--to-destination" then some .toDestination
  else none

def readNumber (text : Bytes) : Option Nat :=
  match inetNumber text with
  | some (value, []) => some value
  | _ => none

def readRange (text : Bytes) : Option Range :=
  match text.splitOn 47 with
  | [host] => (inetAton host).map fun address => ⟨address, 32, le_rfl⟩
  | [host, mask] =>
      match inetAton host, readNumber mask with
      | some address, some bits => if bounded : bits ≤ 32 then some ⟨address, bits, bounded⟩ else none
      | _, _ => none
  | _ => none

def readEndpoint (text : Bytes) : Option (Nat × Nat) :=
  match text.splitOn 58 with
  | [host, port] =>
      match inetAton host, readNumber port with
      | some address, some port => some (address, port)
      | _, _ => none
  | _ => none

structure Options where
  table : Option Bytes
  chain : Option Bytes
  protocol : Option Protocol
  destination : Option Range
  owner : Bool
  uid : Option Nat
  dport : Option Nat
  jump : Option Bytes
  toPorts : Option Nat
  toDestination : Option (Nat × Nat)

def Options.start : Options where
  table := none
  chain := none
  protocol := none
  destination := none
  owner := false
  uid := none
  dport := none
  jump := none
  toPorts := none
  toDestination := none

/-- An option of an extension or a target is known once that has been named. -/
def Options.read (options : Options) (flag : Flag) (value : Bytes) : Option Options :=
  match flag with
  | .table => some { options with table := some value }
  | .append => some { options with chain := some value }
  | .protocol =>
      if value = ascii "tcp" then some { options with protocol := some .tcp }
      else if value = ascii "udp" then some { options with protocol := some .udp }
      else none
  | .destination => (readRange value).map fun range => { options with destination := some range }
  | .extension => if value = ascii "owner" then some { options with owner := true } else none
  | .uidOwner =>
      if options.owner then (readNumber value).map fun uid => { options with uid := some uid }
      else none
  | .dport =>
      if options.protocol.isSome then
        (readNumber value).map fun port => { options with dport := some port }
      else none
  | .jump => some { options with jump := some value }
  | .toPorts =>
      if options.jump = some (ascii "REDIRECT") then
        (readNumber value).map fun port => { options with toPorts := some port }
      else none
  | .toDestination =>
      if options.jump = some (ascii "DNAT") then
        (readEndpoint value).map fun endpoint => { options with toDestination := some endpoint }
      else none

def readOptions : Options → List Bytes → Option Options
  | options, [] => some options
  | _, [_] => none
  | options, word :: value :: rest =>
      match readFlag word with
      | none => none
      | some flag =>
          match options.read flag value with
          | none => none
          | some next => readOptions next rest

def Options.target (options : Options) : Option Target :=
  if options.jump = some (ascii "RETURN") then some .return
  else if options.jump = some (ascii "REDIRECT") then options.toPorts.map .redirect
  else if options.jump = some (ascii "DNAT") then
    options.toDestination.map fun endpoint => .dnat endpoint.1 endpoint.2
  else none

def Options.rule (options : Options) : Option Rule :=
  if options.table = some (ascii "nat") ∧ options.chain = some (ascii "OUTPUT") then
    options.target.map fun target =>
      { protocol := options.protocol
        destination := options.destination
        dport := options.dport
        uid := options.uid
        target := target }
  else none

def readRule (path : Bytes) : List Bytes → Option Rule
  | [] => none
  | program :: arguments =>
      if program = path then (readOptions .start arguments).bind Options.rule else none

def runRule (path : Bytes) (command : Command) : Option Rule :=
  if command.ender = 10 then (command.words.mapM argument).bind (readRule path) else none

/-- The chain behind a script in which every command is one that appends a rule. -/
def loadRules (path script : Bytes) : Option (List Rule) :=
  (readCommands script).bind fun commands => commands.mapM (runRule path)

end ProxySet.Droid
