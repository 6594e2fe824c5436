import ProxySet.Droid.ProxySh
import ProxySet.Redsocks.ConfigText

/-!
What `proxy.sh` writes, as blocks of assignments, and what the parser of redsocks
makes of it.
-/

namespace ProxySet.Droid

open Shell ConfigMemory

/-! ### The texts as blocks -/

def baseBlock : ConfBlock where
  name := ascii "base"
  assigns :=
    [(ascii "log_debug", .word (ascii "off")), (ascii "log_info", .word (ascii "off")),
      (ascii "log", .word (ascii "stderr")), (ascii "daemon", .word (ascii "on")),
      (ascii "redirector", .word (ascii "iptables"))]
  before := 0
  after := 0

def baseConf : ConfText where
  blocks := [baseBlock]
  tail := 0

def relayAssigns (localPort : Nat) (type : Bytes) : List (Bytes × ConfValue) :=
  [(ascii "local_ip", .word (ascii "127.0.0.1")), (ascii "local_port", .word (decimal localPort)),
    (ascii "ip", .param (ascii "host")), (ascii "port", .param (ascii "port")),
    (ascii "type", .word type)]

def credentialAssigns : List (Bytes × ConfValue) :=
  [(ascii "login", .quoted (ascii "user")), (ascii "password", .quoted (ascii "pass"))]

def domainAssigns : List (Bytes × ConfValue) :=
  [(ascii "domain", .quoted (ascii "domain"))]

def credentials (auth : Bool) : List (Bytes × ConfValue) :=
  if auth then credentialAssigns else []

structure Margins where
  before : Nat
  after : Nat
  tail : Nat

def relayBlock (more : List (Bytes × ConfValue)) (margins : Margins) (relay : Nat × Bytes) :
    ConfBlock where
  name := ascii "redsocks"
  assigns := relayAssigns relay.1 relay.2 ++ more
  before := margins.before
  after := margins.after

def relayConf (relays : List (Nat × Bytes)) (more : List (Bytes × ConfValue)) (margins : Margins) :
    ConfText where
  blocks := relays.map (relayBlock more margins)
  tail := margins.tail

def httpRelays : List (Nat × Bytes) :=
  [(8123, ascii "http-relay"), (8124, ascii "http-connect")]

def droidRelays (type : Bytes) : List (Nat × Bytes) :=
  if type = ascii "http" then httpRelays else [(8123, type)]

def appRelays (type : Bytes) : List (Nat × Bytes) :=
  if type = ascii "http" then httpRelays else [(8123, ascii "socks5")]

def authText (auth : Bool) : Bytes :=
  if auth then ascii "true" else ascii "false"

theorem echoWord_source {conf : ConfText} (known : conf.blocks.all ConfBlock.readable = true) :
    echoWord conf.source = some conf.pieces := by
  have begin : Reader.start.feedByte 34 = Reader.inDouble [] [] [] := rfl
  have final : Reader.start.feed (34 :: (conf.source ++ [34])) =
      Reader.inside [] [] (literal [10] ++ conf.blocks.flatMap ConfBlock.pieces ++
        literal (blanks conf.tail)) := by
    rw [Reader.feed_cons, begin, Reader.feed_append, feed_text [] [] [] known]
    rfl
  rw [echoWord, doubleQuoted, readCommands, final]
  simp [Reader.inside, Reader.endWord, Reader.endLine, Reader.endCommand, ConfText.pieces, literal]

theorem echo_source (values : Bytes → Bytes) {conf : ConfText}
    (known : conf.blocks.all ConfBlock.readable = true) :
    echo values conf.source = some (conf.render values) := by
  rw [echo, echoWord_source known, Option.bind_some, expand_text]

theorem baseText_source : baseText = baseConf.source := by
  simp only [baseText, baseConf, baseBlock]
  repeat rw [ascii_ofList]
  decide

theorem httpTrueText_source :
    httpTrueText = (relayConf httpRelays credentialAssigns ⟨0, 1, 0⟩).source := by
  simp only [httpTrueText, httpRelays, relayConf, credentialAssigns]
  repeat rw [ascii_ofList]
  decide +kernel

theorem httpFalseText_source : httpFalseText = (relayConf httpRelays [] ⟨0, 1, 1⟩).source := by
  simp only [httpFalseText, httpRelays, relayConf]
  repeat rw [ascii_ofList]
  decide +kernel

theorem socks5TrueText_source :
    socks5TrueText = (relayConf [(8123, ascii "socks5")] credentialAssigns ⟨1, 0, 1⟩).source := by
  simp only [socks5TrueText, relayConf, credentialAssigns]
  repeat rw [ascii_ofList]
  decide

theorem socks5FalseText_source :
    socks5FalseText = (relayConf [(8123, ascii "socks5")] [] ⟨1, 0, 1⟩).source := by
  simp only [socks5FalseText, relayConf]
  repeat rw [ascii_ofList]
  decide

theorem socks4TrueText_source :
    socks4TrueText = (relayConf [(8123, ascii "socks4")] credentialAssigns ⟨1, 0, 1⟩).source := by
  simp only [socks4TrueText, relayConf, credentialAssigns]
  repeat rw [ascii_ofList]
  decide

theorem socks4FalseText_source :
    socks4FalseText = (relayConf [(8123, ascii "socks4")] [] ⟨1, 0, 1⟩).source := by
  simp only [socks4FalseText, relayConf]
  repeat rw [ascii_ofList]
  decide

theorem appHttpTrueText_source : appHttpTrueText =
    (relayConf httpRelays (credentialAssigns ++ domainAssigns) ⟨0, 0, 0⟩).source := by
  simp only [appHttpTrueText, httpRelays, relayConf, credentialAssigns, domainAssigns]
  repeat rw [ascii_ofList]
  decide +kernel

theorem appHttpFalseText_source :
    appHttpFalseText = (relayConf httpRelays [] ⟨0, 0, 1⟩).source := by
  simp only [appHttpFalseText, httpRelays, relayConf]
  repeat rw [ascii_ofList]
  decide +kernel

theorem droidText_source {type : Bytes}
    (known : type ∈ [ascii "http", ascii "socks4", ascii "socks5"]) (auth : Bool) :
    ∃ margins, droidText type (authText auth) =
      some (relayConf (droidRelays type) (credentials auth) margins).source := by
  simp only [List.mem_cons, List.not_mem_nil, or_false] at known
  rcases known with rfl | rfl | rfl <;> cases auth
  · exact ⟨_, congrArg some httpFalseText_source⟩
  · exact ⟨_, congrArg some httpTrueText_source⟩
  · exact ⟨_, congrArg some socks4FalseText_source⟩
  · exact ⟨_, congrArg some socks4TrueText_source⟩
  · exact ⟨_, congrArg some socks5FalseText_source⟩
  · exact ⟨_, congrArg some socks5TrueText_source⟩

theorem appText_source {type : Bytes} (known : type ∈ [ascii "http", ascii "socks"]) :
    ∃ margins, appText type (ascii "false") = some (relayConf (appRelays type) [] margins).source := by
  simp only [List.mem_cons, List.not_mem_nil, or_false] at known
  rcases known with rfl | rfl
  · exact ⟨_, congrArg some appHttpFalseText_source⟩
  · exact ⟨_, congrArg some socks5FalseText_source⟩

/-! ### What the blocks are -/

def isReadable (assigns : List (Bytes × ConfValue)) : Bool :=
  assigns.all fun assign => assign.1.all Reader.isQuotedByte && assign.2.readable

theorem isQuotedByte_of_isdigit {byte : UInt8} (digit : isdigit byte = true) :
    Reader.isQuotedByte byte = true := by
  have other : ∀ symbol : UInt8, isdigit symbol = false → byte ≠ symbol := by
    rintro symbol none rfl
    rw [digit] at none
    cases none
  simp only [Reader.isQuotedByte, Bool.and_eq_true, bne_iff_ne]
  exact ⟨⟨⟨⟨other 0 rfl, other 34 rfl⟩, other 36 rfl⟩, other 92 rfl⟩, other 96 rfl⟩

theorem decimal_quoted (value : Nat) : (decimal value).all Reader.isQuotedByte = true :=
  List.all_eq_true.mpr fun byte member => isQuotedByte_of_isdigit (decimal_isdigit value byte member)

theorem relayConf_readable {relays : List (Nat × Bytes)}
    (types : ∀ relay ∈ relays, relay.2 ∈ relaySubsystems) {more : List (Bytes × ConfValue)}
    (known : isReadable more = true) (margins : Margins) :
    (relayConf relays more margins).blocks.all ConfBlock.readable = true := by
  have name : (ascii "redsocks").all Reader.isQuotedByte = true := by decide
  have subsystems : ∀ type ∈ relaySubsystems, type.all Reader.isQuotedByte = true := by
    decide
  refine List.all_eq_true.mpr fun block member => ?_
  obtain ⟨relay, listed, rfl⟩ := List.mem_map.mp member
  have fixed : isReadable (relayAssigns relay.1 relay.2) = true := by
    have type := subsystems _ (types relay listed)
    have number := decimal_quoted relay.1
    have others : isReadable [(ascii "local_ip", .word (ascii "127.0.0.1")),
        (ascii "local_port", .word []), (ascii "ip", .param (ascii "host")),
        (ascii "port", .param (ascii "port")), (ascii "type", .word [])] = true := by
      decide
    simp only [isReadable, relayAssigns, List.all_cons, List.all_nil, Bool.and_true,
      Bool.and_eq_true, ConfValue.readable] at others type number ⊢
    exact ⟨others.1, ⟨others.2.1, number⟩, others.2.2.1, others.2.2.2.1, others.2.2.2.2, type⟩
  rw [isReadable] at known fixed
  rw [relayBlock, ConfBlock.readable, List.all_append, name, known, fixed]
  rfl

theorem isPlainText_number {text : Bytes} (first : text.head?.any isdigit = true)
    (all : ∀ byte ∈ text, (isdigit byte || byte == 46) = true) : isPlainText text = true := by
  have number : ∀ rest : Bytes, (∀ byte ∈ rest, (isdigit byte || byte == 46) = true) →
      isNumberText rest = true := by
    intro rest all
    induction rest with
    | nil => rfl
    | cons byte rest ih =>
        simp only [List.mem_cons, forall_eq_or_imp] at all
        simp [isNumberText, numberGoes, all.1, ih all.2]
  simp [isPlainText, first, number text all]

theorem isPlainText_decimal (value : Nat) : isPlainText (decimal value) = true := by
  have first : (decimal value).head?.any isdigit = true := by
    obtain ⟨byte, rest, split⟩ := List.exists_cons_of_ne_nil (decimal_ne_nil value)
    have digit := decimal_isdigit value byte (by simp [split])
    simp [split, digit]
  exact isPlainText_number first fun byte member => by simp [decimal_isdigit value byte member]

theorem isPlainText_address (address : Ipv4) : isPlainText address.text = true := by
  have first : address.text.head?.any isdigit = true := by
    obtain ⟨byte, rest, split⟩ := List.exists_cons_of_ne_nil (decimal_ne_nil address.a.toNat)
    have digit := decimal_isdigit address.a.toNat byte (by simp [split])
    simp [Ipv4.text, split, digit]
  exact isPlainText_number first address.text_bytes

/-- The variables of `proxy.sh` for an upstream proxy, as plain words. -/
structure Worded (values : Bytes → Bytes) : Prop where
  host : isPlainText (values (ascii "host")) = true
  port : isPlainText (values (ascii "port")) = true

/-- The upstream proxy that redsocks reads from these variables. -/
structure Upstreams (platform : Platform) (values : Bytes → Bytes) (address port : Nat) : Prop where
  host : vpInAddr platform (values (ascii "host")) = .ok (.inAddr address)
  port : vpUint16 platform (values (ascii "port")) = .ok (.uint16 port)

def relayConfig (address port : Nat) (login password : Option Bytes) (relay : Nat × Bytes) :
    RedsocksConfig :=
  { RedsocksConfig.fresh with
    bindPort := relay.1
    relayAddr := address
    relayPort := port
    type := some relay.2
    login := login
    password := password }

section

variable {platform : Platform} {values : Bytes → Bytes} {address port : Nat}

theorem relayBlock_wellFormed (worded : Worded values) {relay : Nat × Bytes}
    (type : relay.2 ∈ relaySubsystems) {more : List (Bytes × ConfValue)}
    (keys : ∀ assign ∈ more, isPlainText assign.1 = true)
    (known : ∀ assign ∈ more, assign.2.WellFormed values) (margins : Margins) :
    (relayBlock more margins relay).WellFormed values := by
  have fixed : ∀ key ∈ [ascii "redsocks", ascii "local_ip", ascii "127.0.0.1", ascii "local_port",
      ascii "ip", ascii "port", ascii "type"], isPlainText key = true := by decide
  have types : ∀ type ∈ relaySubsystems, isPlainText type = true := by decide
  simp only [List.mem_cons, List.not_mem_nil, or_false, forall_eq_or_imp, forall_eq] at fixed
  obtain ⟨name, localIp, address, localPort, ip, upstreamPort, typeKey⟩ := fixed
  refine ⟨name, ?_, ?_⟩
  · simp only [relayBlock, relayAssigns, List.mem_append, List.mem_cons, List.not_mem_nil, or_false]
    rintro assign ((rfl | rfl | rfl | rfl | rfl) | member)
    · exact localIp
    · exact localPort
    · exact ip
    · exact upstreamPort
    · exact typeKey
    · exact keys assign member
  · simp only [relayBlock, relayAssigns, List.mem_append, List.mem_cons, List.not_mem_nil, or_false]
    rintro assign ((rfl | rfl | rfl | rfl | rfl) | member)
    · exact address
    · exact isPlainText_decimal relay.1
    · exact worded.host
    · exact worded.port
    · exact types _ type
    · exact known assign member

section

variable {current : ParserSection ConfigMemory} (key : Bytes) {value : Bytes}

theorem runAssign_inAddr {store : Nat → ConfigMemory → ConfigMemory} {address : Nat}
    (found : current.entries.find? (·.key == key) = some (inAddrEntry key store))
    (ok : vpInAddr platform value = .ok (.inAddr address)) (effect : ProxySet.Effect ConfigMemory) :
    runAssign platform current effect (key, value) =
      some (store address effect.1, effect.2 ++ [.value current.name key value]) := by
  simp [runAssign, found, inAddrEntry, valueParserByType, ok]

theorem runAssign_uint16 {store : Nat → ConfigMemory → ConfigMemory} {number : Nat}
    (found : current.entries.find? (·.key == key) = some (uint16Entry key store))
    (ok : vpUint16 platform value = .ok (.uint16 number)) (effect : ProxySet.Effect ConfigMemory) :
    runAssign platform current effect (key, value) =
      some (store number effect.1, effect.2 ++ [.value current.name key value]) := by
  simp [runAssign, found, uint16Entry, valueParserByType, ok]

theorem runAssign_pchar {store : Bytes → ConfigMemory → ConfigMemory}
    (found : current.entries.find? (·.key == key) = some (pcharEntry key store))
    (effect : ProxySet.Effect ConfigMemory) :
    runAssign platform current effect (key, value) =
      some (store value effect.1, effect.2 ++ [.value current.name key value]) := by
  simp [runAssign, found, pcharEntry, valueParserByType, vpPchar]

end

theorem vpInAddr_loopback :
    vpInAddr platform (ascii "127.0.0.1") = .ok (.inAddr inaddrLoopback) := by
  have text : ascii "127.0.0.1" = Ipv4.text ⟨127, 0, 0, 1⟩ := by decide
  rw [text, vpInAddr_text]
  rfl

theorem runBody_relay (wide : 16 ≤ platform.longBits) (set : Upstreams platform values address port)
    {relay : Nat × Bytes} (bounded : relay.1 < 2 ^ 16) (more : List (Bytes × Bytes))
    (effect : ProxySet.Effect ConfigMemory) :
    ∃ calls, runBody platform redsocksSection
        (((relayAssigns relay.1 relay.2).map fun assign => (assign.1, assign.2.text values)) ++ more)
        effect =
      runBody platform redsocksSection more
        (effect.1.setRedsocks fun config =>
          { config with
            bindAddr := inaddrLoopback
            bindPort := relay.1
            relayAddr := address
            relayPort := port
            type := some relay.2 }, calls) := by
  simp only [relayAssigns, List.map_cons, List.map_nil, List.cons_append, List.nil_append,
    ConfValue.text, runBody]
  rw [runAssign_inAddr (ascii "local_ip") rfl vpInAddr_loopback, Option.bind_some,
    runAssign_uint16 (ascii "local_port") rfl (vpUint16_decimal platform wide bounded),
    Option.bind_some, runAssign_inAddr (ascii "ip") rfl set.host, Option.bind_some,
    runAssign_uint16 (ascii "port") rfl set.port, Option.bind_some, runAssign_pchar (ascii "type") rfl, Option.bind_some]
  exact ⟨_, rfl⟩

def credential (values : Bytes → Bytes) (auth : Bool) (name : Bytes) : Option Bytes :=
  if auth then some (values name) else none

theorem runHook_exit {login password : Option Bytes} {relay : Nat × Bytes}
    (type : relay.2 ∈ relaySubsystems) {effect : ProxySet.Effect ConfigMemory}
    (set : effect.1.redsocks = relayConfig address port login password relay) :
    ∃ memory calls, runHook redsocksSection.onexit (.onexit redsocksSection.name) effect =
        some (memory, calls) ∧
      memory.instances = relayConfig address port login password relay :: effect.1.instances := by
  have left : redsocksOnexit effect.1 =
      .ok { effect.1 with instances := effect.1.redsocks :: effect.1.instances } := by
    simp [redsocksOnexit, set, relayConfig, RedsocksConfig.fresh, type]
  refine ⟨{ effect.1 with instances := effect.1.redsocks :: effect.1.instances },
    effect.2 ++ [.onexit redsocksSection.name], ?_, congrArg (· :: effect.1.instances) set⟩
  simp only [runHook, redsocksSection, left]

theorem runBlock_relay (wide : 16 ≤ platform.longBits) (set : Upstreams platform values address port)
    {relay : Nat × Bytes} (bounded : relay.1 < 2 ^ 16) (type : relay.2 ∈ relaySubsystems)
    (auth : Bool) (margins : Margins) (effect : ProxySet.Effect ConfigMemory) :
    ∃ memory calls, runBlock platform configSections effect
        ((relayBlock (credentials auth) margins relay).block values) = some (memory, calls) ∧
      memory.instances = relayConfig address port (credential values auth (ascii "user"))
        (credential values auth (ascii "pass")) relay :: effect.1.instances := by
  have found : configSections.find? (·.name == ascii "redsocks") = some redsocksSection := rfl
  have entered : runHook redsocksSection.onenter (.onenter redsocksSection.name) effect =
      some ({ effect.1 with redsocks := .fresh },
        effect.2 ++ [.onenter redsocksSection.name]) := rfl
  obtain ⟨calls, relayed⟩ := runBody_relay wide set bounded
    ((credentials auth).map fun assign => (assign.1, assign.2.text values))
    ({ effect.1 with redsocks := .fresh }, effect.2 ++ [.onenter redsocksSection.name])
  simp only [runBlock, ConfBlock.block, relayBlock, found, entered, Option.bind_some,
    List.map_append, relayed]
  cases auth with
  | false => exact runHook_exit type rfl
  | true =>
      simp only [credentials, credentialAssigns, if_true, List.map_cons, List.map_nil,
        ConfValue.text, runBody]
      rw [runAssign_pchar (ascii "login") rfl, Option.bind_some,
        runAssign_pchar (ascii "password") rfl, Option.bind_some]
      exact runHook_exit type rfl

theorem runBlocks_relays (wide : 16 ≤ platform.longBits) (set : Upstreams platform values address port)
    {relays : List (Nat × Bytes)}
    (known : ∀ relay ∈ relays, relay.1 < 2 ^ 16 ∧ relay.2 ∈ relaySubsystems)
    (auth : Bool) (margins : Margins) (effect : ProxySet.Effect ConfigMemory) :
    ∃ memory calls, runBlocks platform configSections
        (relays.map fun relay => (relayBlock (credentials auth) margins relay).block values) effect =
          some (memory, calls) ∧
      memory.instances = (relays.map (relayConfig address port (credential values auth (ascii "user"))
        (credential values auth (ascii "pass")))).reverse ++ effect.1.instances := by
  induction relays generalizing effect with
  | nil => exact ⟨effect.1, effect.2, rfl, rfl⟩
  | cons relay relays ih =>
      simp only [List.mem_cons, forall_eq_or_imp] at known
      obtain ⟨memory, calls, one, first⟩ :=
        runBlock_relay wide set known.1.1 known.1.2 auth margins effect
      obtain ⟨final, trace, ran, others⟩ := ih known.2 (memory, calls)
      refine ⟨final, trace, ?_, ?_⟩
      · rw [List.map_cons, runBlocks, one, Option.bind_some, ran]
      · rw [others, first]
        simp

theorem runBlock_base (platform : Platform) (values : Bytes → Bytes) :
    ∃ memory calls, runBlock platform configSections (ConfigMemory.start, [])
        (baseBlock.block values) = some (memory, calls) ∧ memory.instances = [] :=
  ⟨_, _, rfl, rfl⟩

/-! ### The whole file -/

/-- A credential that the configuration file can hold. -/
structure Holdable (text : Bytes) : Prop where
  nulFree : 0 ∉ text
  quotable : isQuotable text = true
  noPunctuation : isPunctuationText text = false
  noMark : isMarkText text = false

theorem nul_of_plainText {text : Bytes} (known : isPlainText text = true) : 0 ∉ text := by
  intro member
  simp only [isPlainText, Bool.or_eq_true, Bool.and_eq_true, List.all_eq_true] at known
  rcases known with ⟨-, word⟩ | ⟨-, number⟩
  · exact absurd (word 0 member) (by decide)
  · induction text with
    | nil => simp at member
    | cons byte rest ih =>
        simp only [isNumberText, Bool.and_eq_true] at number
        rcases List.mem_cons.mp member with rfl | later
        · exact absurd number.1 (by simp [numberGoes, isdigit])
        · exact ih later number.2

theorem nul_of_block {block : ConfBlock} (known : block.WellFormed values)
    (quoted : ∀ assign ∈ block.assigns, ∀ name, assign.2 = .quoted name → 0 ∉ values name) :
    0 ∉ block.render values := by
  have blank (count : Nat) : (0 : UInt8) ∉ blanks count := by simp [blanks]
  have value : ∀ assign ∈ block.assigns, 0 ∉ assign.2.render values := by
    intro assign member
    have wellFormed := known.values assign member
    cases kind : assign.2 with
    | word text =>
        rw [kind] at wellFormed
        exact nul_of_plainText wellFormed
    | param name =>
        rw [kind] at wellFormed
        exact nul_of_plainText wellFormed
    | quoted name =>
        have inside := quoted assign member name kind
        simp [ConfValue.render, inside]
  have lines : 0 ∉ block.assigns.flatMap (ConfBlock.assignRender values) := by
    simp only [List.mem_flatMap, not_exists, not_and]
    intro assign member
    have key := nul_of_plainText (known.keys assign member)
    simp [ConfBlock.assignRender, key, value assign member]
  have name := nul_of_plainText known.name
  simp [ConfBlock.render, name, lines, blank]

theorem nul_of_texts {confs : List ConfText}
    (each : ∀ conf ∈ confs, ∀ block ∈ conf.blocks, 0 ∉ block.render values) :
    0 ∉ confs.flatMap (ConfText.render values) := by
  simp only [List.mem_flatMap, not_exists, not_and]
  intro conf member
  have inside : 0 ∉ conf.blocks.flatMap (ConfBlock.render values) := by
    simp only [List.mem_flatMap, not_exists, not_and]
    exact each conf member
  simp [ConfText.render, inside, blanks]

theorem baseBlock_wellFormed : baseBlock.WellFormed values where
  name := by decide
  keys := by decide
  values := by
    simp only [baseBlock, List.mem_cons, List.not_mem_nil, or_false, forall_eq_or_imp, forall_eq,
      ConfValue.WellFormed]
    decide

def Quoting (values : Bytes → Bytes) (more : List (Bytes × ConfValue)) : Prop :=
  ∀ assign ∈ more, isPlainText assign.1 = true ∧
    ∃ name, assign.2 = .quoted name ∧ Holdable (values name)

theorem credentials_quoting {auth : Bool}
    (holds : auth = true → Holdable (values (ascii "user")) ∧ Holdable (values (ascii "pass"))) :
    Quoting values (credentials auth) := by
  cases auth with
  | false => simp [Quoting, credentials]
  | true =>
      have keys : isPlainText (ascii "login") = true ∧ isPlainText (ascii "password") = true := by
        decide
      simp only [Quoting, credentials, credentialAssigns, if_true, List.mem_cons, List.not_mem_nil,
        or_false, forall_eq_or_imp, forall_eq]
      exact ⟨⟨keys.1, _, rfl, (holds rfl).1⟩, keys.2, _, rfl, (holds rfl).2⟩

section

variable {relays : List (Nat × Bytes)} {more : List (Bytes × ConfValue)} (margins : Margins)
  (worded : Worded values) (types : ∀ relay ∈ relays, relay.2 ∈ relaySubsystems)
  (quoting : Quoting values more)

theorem quoted_added {conf : ConfText} (listed : conf ∈ [baseConf, relayConf relays more margins])
    {block : ConfBlock} (inConf : block ∈ conf.blocks) {assign : Bytes × ConfValue}
    (inBlock : assign ∈ block.assigns) {name : Bytes} (quoted : assign.2 = .quoted name) :
    assign ∈ more := by
  simp only [List.mem_cons, List.not_mem_nil, or_false] at listed
  rcases listed with rfl | rfl
  · rw [List.mem_singleton.mp inConf] at inBlock
    simp only [baseBlock, List.mem_cons, List.not_mem_nil, or_false] at inBlock
    rcases inBlock with rfl | rfl | rfl | rfl | rfl <;> simp at quoted
  · obtain ⟨relay, -, rfl⟩ := List.mem_map.mp inConf
    rcases List.mem_append.mp inBlock with fixed | added
    · simp only [relayAssigns, List.mem_cons, List.not_mem_nil, or_false] at fixed
      rcases fixed with rfl | rfl | rfl | rfl | rfl <;> simp at quoted
    · exact added

include worded types in
theorem relayFile_wellFormed_of (keys : ∀ assign ∈ more, isPlainText assign.1 = true)
    (known : ∀ assign ∈ more, assign.2.WellFormed values) :
    ∀ conf ∈ [baseConf, relayConf relays more margins],
      ∀ block ∈ conf.blocks, block.WellFormed values := by
  simp only [List.mem_cons, List.not_mem_nil, or_false, forall_eq_or_imp, forall_eq]
  refine ⟨?_, ?_⟩
  · intro block member
    rw [List.mem_singleton.mp member]
    exact baseBlock_wellFormed
  · intro block member
    obtain ⟨relay, listed, rfl⟩ := List.mem_map.mp member
    exact relayBlock_wellFormed worded (types relay listed) keys known margins

include quoting

theorem quoted_holdable {conf : ConfText} (listed : conf ∈ [baseConf, relayConf relays more margins])
    {block : ConfBlock} (inConf : block ∈ conf.blocks) {assign : Bytes × ConfValue}
    (inBlock : assign ∈ block.assigns) {name : Bytes} (quoted : assign.2 = .quoted name) :
    Holdable (values name) := by
  obtain ⟨-, other, same, holds⟩ :=
    quoting assign (quoted_added margins listed inConf inBlock quoted)
  rw [quoted] at same
  cases same
  exact holds

theorem relayFile_plain : ∀ conf ∈ [baseConf, relayConf relays more margins],
    ∀ block ∈ conf.blocks, ∀ assign ∈ block.assigns, assign.2.Plain values := by
  intro conf listed block inConf assign inBlock
  cases kind : assign.2 with
  | word text => trivial
  | param name => trivial
  | quoted name =>
      have safe := quoted_holdable margins quoting listed inConf inBlock kind
      exact ⟨safe.noPunctuation, safe.noMark⟩

include worded types

theorem relayFile_wellFormed : ∀ conf ∈ [baseConf, relayConf relays more margins],
    ∀ block ∈ conf.blocks, block.WellFormed values := by
  refine relayFile_wellFormed_of margins worded types (fun assign member => (quoting assign member).1)
    fun assign member => ?_
  obtain ⟨-, name, same, holds⟩ := quoting assign member
  rw [same]
  exact holds.quotable

theorem relayFile_nulFree :
    0 ∉ [baseConf, relayConf relays more margins].flatMap (ConfText.render values) :=
  nul_of_texts fun conf listed block inConf =>
    nul_of_block (relayFile_wellFormed margins worded types quoting conf listed block inConf)
      fun _ inBlock _ kind => (quoted_holdable margins quoting listed inConf inBlock kind).nulFree

end

theorem relayFile_blocks (relays : List (Nat × Bytes)) (more : List (Bytes × ConfValue))
    (margins : Margins) :
    confBlocks values [baseConf, relayConf relays more margins] =
      baseBlock.block values :: relays.map fun relay => (relayBlock more margins relay).block values := by
  simp [confBlocks, baseConf, relayConf, Function.comp_def]

/-- A file with a block for each relay is accepted and configures just these. -/
theorem parserRun_relays (wide : 16 ≤ platform.longBits) (worded : Worded values)
    (set : Upstreams platform values address port) {relays : List (Nat × Bytes)}
    (known : ∀ relay ∈ relays, relay.1 < 2 ^ 16 ∧ relay.2 ∈ relaySubsystems) {auth : Bool}
    (holds : auth = true → Holdable (values (ascii "user")) ∧ Holdable (values (ascii "pass")))
    (margins : Margins) :
    let final := parserRun platform configSections .start
      ([baseConf, relayConf relays (credentials auth) margins].flatMap (ConfText.render values))
    final.returned = some 0 ∧
      final.vars.memory.instances =
        (relays.map (relayConfig address port (credential values auth (ascii "user"))
          (credential values auth (ascii "pass")))).reverse := by
  have types : ∀ relay ∈ relays, relay.2 ∈ relaySubsystems :=
    fun relay member => (known relay member).2
  have quoting := credentials_quoting holds
  obtain ⟨based, calls, base, fresh⟩ := runBlock_base platform values
  obtain ⟨memory, trace, ran, started⟩ := runBlocks_relays wide set known auth margins (based, calls)
  have whole : runBlocks platform configSections
      (confBlocks values [baseConf, relayConf relays (credentials auth) margins])
      (ConfigMemory.start, []) = some (memory, trace) := by
    rw [relayFile_blocks, runBlocks, base, Option.bind_some, ran]
  obtain ⟨accepted, left⟩ := parserRun_conf (relayFile_wellFormed margins worded types quoting)
    (relayFile_plain margins quoting) (relayFile_nulFree margins worded types quoting) whole
  refine ⟨accepted, ?_⟩
  rw [left, started, fresh, List.append_nil]

theorem runBody_stuck {current : ParserSection ConfigMemory} {assigns : List (Bytes × Bytes)}
    {assign : Bytes × Bytes} (member : assign ∈ assigns)
    (stuck : ∀ effect, runAssign platform current effect assign = none)
    (effect : ProxySet.Effect ConfigMemory) : runBody platform current assigns effect = none := by
  induction assigns generalizing effect with
  | nil => simp at member
  | cons first rest ih =>
      rcases List.mem_cons.mp member with rfl | later
      · rw [runBody, stuck, Option.bind_none]
      · rw [runBody]
        cases runAssign platform current effect first with
        | none => rfl
        | some next => exact ih later next

/-- A block with an assignment that fails is enough for a file to be refused. -/
theorem parserRun_stuck (worded : Worded values) {relays : List (Nat × Bytes)}
    (types : ∀ relay ∈ relays, relay.2 ∈ relaySubsystems) {more : List (Bytes × ConfValue)}
    (quoting : Quoting values more) (margins : Margins) {relay : Nat × Bytes}
    (listed : relay ∈ relays) {assign : Bytes × ConfValue}
    (member : assign ∈ relayAssigns relay.1 relay.2 ++ more)
    (stuck : ∀ effect,
      runAssign platform redsocksSection effect (assign.1, assign.2.text values) = none) :
    (parserRun platform configSections .start
      ([baseConf, relayConf relays more margins].flatMap (ConfText.render values))).returned ≠
        some 0 := by
  have found : configSections.find? (·.name == ascii "redsocks") = some redsocksSection := rfl
  have block : ∀ effect, runBlock platform configSections effect
      ((relayBlock more margins relay).block values) = none := by
    intro effect
    have entered : runHook redsocksSection.onenter (.onenter redsocksSection.name) effect =
        some ({ effect.1 with redsocks := .fresh },
          effect.2 ++ [.onenter redsocksSection.name]) := rfl
    simp only [runBlock, ConfBlock.block, relayBlock, found, entered, Option.bind_some]
    exact runBody_stuck (List.mem_map.mpr ⟨assign, member, rfl⟩) stuck _
  have blocks : ∀ relays : List (Nat × Bytes), relay ∈ relays → ∀ effect,
      runBlocks platform configSections
        (relays.map fun relay => (relayBlock more margins relay).block values) effect = none := by
    intro relays listed
    induction relays with
    | nil => simp at listed
    | cons first relays ih =>
        intro effect
        rw [List.map_cons, runBlocks]
        rcases List.mem_cons.mp listed with rfl | later
        · rw [block, Option.bind_none]
        · cases runBlock platform configSections effect
              ((relayBlock more margins first).block values) with
          | none => rfl
          | some next => exact ih later next
  obtain ⟨based, calls, base, -⟩ := runBlock_base platform values
  have whole : runBlocks platform configSections
      (confBlocks values [baseConf, relayConf relays more margins]) (ConfigMemory.start, []) =
        none := by
    rw [relayFile_blocks, runBlocks, base, Option.bind_some, blocks relays listed]
  exact parserRun_conf_refused (relayFile_wellFormed margins worded types quoting)
    (relayFile_plain margins quoting) (relayFile_nulFree margins worded types quoting) whole

end

theorem baseConf_readable : baseConf.blocks.all ConfBlock.readable = true := by
  simp only [baseConf, baseBlock]
  repeat rw [ascii_ofList]
  decide

theorem credentials_readable (auth : Bool) : isReadable (credentials auth) = true := by
  cases auth <;> decide

theorem writeConf_source (args : ProxyArgs) {conf : ConfText}
    (known : conf.blocks.all ConfBlock.readable = true) :
    writeConf args baseText (some conf.source) =
      some ([baseConf, conf].flatMap (ConfText.render args.values)) := by
  rw [writeConf, baseText_source, echo_source args.values baseConf_readable]
  simp [echo_source args.values known]

/-- What redsocks has read when `proxy.sh` has written a file and started it. -/
def configured (platform : Platform) (file : Option Bytes) : Option (List RedsocksConfig) :=
  file.bind fun text =>
    let final := parserRun platform configSections .start text
    if final.returned = some 0 then some final.vars.memory.instances else none

theorem configured_relays {platform : Platform} (wide : 16 ≤ platform.longBits) (args : ProxyArgs)
    (worded : Worded args.values) {address port : Nat}
    (set : Upstreams platform args.values address port) {relays : List (Nat × Bytes)}
    (known : ∀ relay ∈ relays, relay.1 < 2 ^ 16 ∧ relay.2 ∈ relaySubsystems) {auth : Bool}
    (holds : auth = true → Holdable args.user ∧ Holdable args.pass) (margins : Margins) :
    configured platform
        (writeConf args baseText (some (relayConf relays (credentials auth) margins).source)) =
      some (relays.map (relayConfig address port (if auth then some args.user else none)
        (if auth then some args.pass else none))).reverse := by
  have readable := relayConf_readable (fun relay member => (known relay member).2)
    (credentials_readable auth) margins
  have user : args.values (ascii "user") = args.user := rfl
  have pass : args.values (ascii "pass") = args.pass := rfl
  have safe : auth = true →
      Holdable (args.values (ascii "user")) ∧ Holdable (args.values (ascii "pass")) := by
    rwa [user, pass]
  obtain ⟨accepted, started⟩ := parserRun_relays wide worded set known safe margins
  rw [writeConf_source args readable, configured, Option.bind_some]
  dsimp only
  rw [if_pos accepted, started]
  rfl

theorem configured_stuck {platform : Platform} (args : ProxyArgs) (worded : Worded args.values)
    {relays : List (Nat × Bytes)} (types : ∀ relay ∈ relays, relay.2 ∈ relaySubsystems)
    {more : List (Bytes × ConfValue)} (readable : isReadable more = true)
    (quoting : Quoting args.values more) (margins : Margins) {relay : Nat × Bytes}
    (listed : relay ∈ relays) {assign : Bytes × ConfValue}
    (member : assign ∈ relayAssigns relay.1 relay.2 ++ more)
    (stuck : ∀ effect,
      runAssign platform redsocksSection effect (assign.1, assign.2.text args.values) = none) :
    configured platform (writeConf args baseText (some (relayConf relays more margins).source)) =
      none := by
  have refused := parserRun_stuck worded types quoting margins listed member stuck
  rw [writeConf_source args (relayConf_readable types readable margins), configured,
    Option.bind_some]
  dsimp only
  rw [if_neg refused]

theorem configured_base (platform : Platform) (args : ProxyArgs) :
    configured platform (writeConf args baseText none) = some [] := by
  have wellFormed : ∀ conf ∈ [baseConf], ∀ block ∈ conf.blocks, block.WellFormed args.values := by
    simp only [List.mem_singleton, forall_eq]
    intro block member
    rw [List.mem_singleton.mp member]
    exact baseBlock_wellFormed
  have unquoted : ∀ conf ∈ [baseConf], ∀ block ∈ conf.blocks, ∀ assign ∈ block.assigns, ∀ name,
      assign.2 ≠ .quoted name := by
    simp only [List.mem_singleton, forall_eq]
    intro block member assign inBlock name quoted
    rw [List.mem_singleton.mp member] at inBlock
    simp only [baseBlock, List.mem_cons, List.not_mem_nil, or_false] at inBlock
    rcases inBlock with rfl | rfl | rfl | rfl | rfl <;> simp at quoted
  have plain : ∀ conf ∈ [baseConf], ∀ block ∈ conf.blocks, ∀ assign ∈ block.assigns,
      assign.2.Plain args.values := by
    intro conf listed block inConf assign inBlock
    cases kind : assign.2 with
    | word text => trivial
    | param name => trivial
    | quoted name => exact absurd kind (unquoted conf listed block inConf assign inBlock name)
  have nulFree := nul_of_texts fun conf listed block inConf =>
    nul_of_block (wellFormed conf listed block inConf) fun assign inBlock name kind =>
      absurd kind (unquoted conf listed block inConf assign inBlock name)
  obtain ⟨memory, calls, ran, fresh⟩ := runBlock_base platform args.values
  have whole : runBlocks platform configSections (confBlocks args.values [baseConf])
      (ConfigMemory.start, []) = some (memory, calls) := by
    have blocks : confBlocks args.values [baseConf] = [baseBlock.block args.values] := by
      simp [confBlocks, baseConf]
    rw [blocks, runBlocks, ran]
    rfl
  obtain ⟨accepted, left⟩ := parserRun_conf wellFormed plain nulFree whole
  simp only [List.flatMap_cons, List.flatMap_nil, List.append_nil] at accepted left
  rw [writeConf, baseText_source, echo_source args.values baseConf_readable]
  simp only [Option.bind_some, configured]
  rw [if_pos accepted, left, fresh]

theorem isLiteralWord_plain {text : Bytes} (known : isPlainText text = true) :
    isLiteralWord text = true := by
  have words := forall_byte (fun byte => !isWordByte byte || startsWord byte) (by decide +kernel)
  have numbers := forall_byte
    (fun byte => !(isdigit byte || byte == 46 || byte == 47) || startsWord byte) (by decide +kernel)
  have nonempty : text ≠ [] := by
    rintro rfl
    simp [isPlainText] at known
  refine isLiteralWord_of_all nonempty fun byte member => ?_
  simp only [isPlainText, Bool.or_eq_true, Bool.and_eq_true, List.all_eq_true] at known
  rcases known with ⟨-, word⟩ | ⟨-, number⟩
  · simpa [word byte member] using words byte
  · clear nonempty
    induction text with
    | nil => simp at member
    | cons first rest ih =>
        simp only [isNumberText, Bool.and_eq_true] at number
        rcases List.mem_cons.mp member with rfl | later
        · have goes := number.1
          have checked := numbers byte
          simp only [numberGoes, Bool.or_eq_true, Bool.and_eq_true] at goes
          have known : (isdigit byte || byte == 46 || byte == 47) = true := by
            simp only [Bool.or_eq_true]
            exact goes.imp id And.left
          rwa [known, Bool.not_true, Bool.false_or] at checked
        · exact ih later number.2

theorem worded_ipv4 {args : ProxyArgs} {host : Ipv4} {port : Nat} (hostText : args.host = host.text)
    (portText : args.port = decimal port) : Worded args.values where
  host := by
    have same : args.values (ascii "host") = host.text := hostText
    rw [same]
    exact isPlainText_address host
  port := by
    have same : args.values (ascii "port") = decimal port := portText
    rw [same]
    exact isPlainText_decimal port

theorem upstreams_ipv4 {platform : Platform} (wide : 16 ≤ platform.longBits) {args : ProxyArgs}
    {host : Ipv4} {port : Nat} (hostText : args.host = host.text)
    (portText : args.port = decimal port) (bounded : port < 2 ^ 16) :
    Upstreams platform args.values host.value port where
  host := by
    have same : args.values (ascii "host") = host.text := hostText
    rw [same, vpInAddr_text]
  port := by
    have same : args.values (ascii "port") = decimal port := portText
    rw [same, vpUint16_decimal platform wide bounded]

theorem droidRelays_known {type : Bytes}
    (known : type ∈ [ascii "http", ascii "socks4", ascii "socks5"]) :
    ∀ relay ∈ droidRelays type, relay.1 < 2 ^ 16 ∧ relay.2 ∈ relaySubsystems := by
  simp only [List.mem_cons, List.not_mem_nil, or_false] at known
  rcases known with rfl | rfl | rfl <;> decide

end ProxySet.Droid
