import ProxySet.App.StartRedsocks
import ProxySet.Droid.Credentials

/-!
The rules that the two apps install, and the relays that redsocks opens for the file
their scripts write: one for each local port that a rule forwards to.
-/

namespace ProxySet.App

open Shell Droid

def localPort (rule : Rule) : Option Nat :=
  match rule.target with
  | .return => none
  | .redirect port => some port
  | .dnat _ port => some port

/-- One relay for each local port of the rules, and no other. -/
def OneEach (relays : List RedsocksConfig) (rules : List Rule) : Prop :=
  (relays.map (·.bindPort)).Nodup ∧
    ∀ port, port ∈ relays.map (·.bindPort) ↔ port ∈ rules.filterMap localPort

def chosenRules (device : Device) (bundle : Bundle) : Option (List Rule) :=
  loadRules programName (forwardCmd device (upstream (onStart bundle)).proxyType)

def DroidListens (platform : Platform) (device : Device) (bundle : Bundle) : Prop :=
  ∃ relays rules, startedRelays platform bundle = some relays ∧
    chosenRules device bundle = some rules ∧ OneEach relays rules

def AppListens (platform : Platform) (args : ProxyArgs) : Prop :=
  ∃ relays rules, configured platform (appProxySh args) = some relays ∧
    loadRules iptables (redirectSh args.type) = some rules ∧ OneEach relays rules

/-- `proxy.sh` gets the credentials and writes them, where it knows the type. -/
def writesCredentials (bundle : Bundle) : Bool :=
  bundle.isAuth && !usesCntlm (onStart bundle)

structure DroidSupported (bundle : Bundle) : Prop where
  served : bundle.proxyType ≠ .httpTunnel
  held : writesCredentials bundle = true → Holdable bundle.user ∧ Holdable bundle.password

def AppSupported (args : ProxyArgs) : Prop :=
  ¬(args.type = ascii "http" ∧ args.auth = ascii "true")

def Unmarked (text : Bytes) : Prop :=
  isQuotable text = true ∧ isMarkText text = false

/-! ### Ports -/

theorem chosenRules_ports (device : Device) (bundle : Bundle) :
    ∃ rules, chosenRules device bundle = some rules ∧ rules.filterMap localPort =
      (forwardedPorts (upstream (onStart bundle)).proxyType).map (·.2) := by
  have literal : isLiteralWord programName = true := by decide
  have readable : ∀ rule ∈ forwardLines device.hasRedirectSupport
      (upstream (onStart bundle)).proxyType, rule.Readable := by
    intro rule member
    obtain ⟨ports, -, rfl⟩ := List.mem_map.mp member
    simp [RuleLine.Readable, forwardLine]
  have read : ∀ rule ∈ forwardLines device.hasRedirectSupport
      (upstream (onStart bundle)).proxyType, ∀ addr ∈ rule.destination,
        (readRange addr).isSome = true := by
    intro rule member
    obtain ⟨ports, -, rfl⟩ := List.mem_map.mp member
    simp [forwardLine]
  refine ⟨(forwardLines device.hasRedirectSupport
    (upstream (onStart bundle)).proxyType).map RuleLine.toRule, ?_, ?_⟩
  · rw [chosenRules, forwardCmd_lines, loadRules_lines literal readable, mapM_rule? read]
  · rw [forwardLines]
    induction forwardedPorts (upstream (onStart bundle)).proxyType with
    | nil => rfl
    | cons ports rest ih =>
        have first : localPort (forwardLine device.hasRedirectSupport ports).toRule =
            some ports.2 := by
          cases device.hasRedirectSupport <;> rfl
        rw [List.map_cons, List.map_cons, List.filterMap_cons, first, List.map_cons]
        exact congrArg (ports.2 :: ·) ih

theorem redirectSh_ports (type : Bytes) :
    ∃ rules, loadRules iptables (redirectSh type) = some rules ∧
      rules.filterMap localPort = (redirectedPorts type).map (·.2) := by
  have ports (list : List (Option Nat × Nat)) :
      (list.map tcpRule).filterMap localPort = list.map (·.2) := by
    induction list with
    | nil => rfl
    | cons first rest ih =>
        rw [List.map_cons, List.filterMap_cons, List.map_cons]
        exact congrArg (first.2 :: ·) ih
  exact ⟨_, loadRules_redirectSh type, ports _⟩

theorem oneEach_relays {relays : List (Nat × Bytes)} {rules : List Rule} {address port : Nat}
    {login password : Option Bytes} {ports : List Nat}
    (forwarded : rules.filterMap localPort = ports) (distinct : (relays.map (·.1)).Nodup)
    (same : ∀ port, port ∈ relays.map (·.1) ↔ port ∈ ports) :
    OneEach (relays.map (relayConfig address port login password)).reverse rules := by
  have bound : (relays.map (relayConfig address port login password)).map (·.bindPort) =
      relays.map (·.1) := by
    rw [List.map_map]
    rfl
  rw [OneEach, List.map_reverse, bound, forwarded, List.nodup_reverse]
  exact ⟨distinct, fun port => by rw [List.mem_reverse, same]⟩

theorem droidRelays_ports {proxyType : ProxyType}
    (known : proxyType = .http ∨ proxyType = .socks4 ∨ proxyType = .socks5) :
    ((droidRelays proxyType.text).map (·.1)).Nodup ∧ ∀ port,
      port ∈ (droidRelays proxyType.text).map (·.1) ↔
        port ∈ (forwardedPorts proxyType).map (·.2) := by
  have socks4 : ascii "socks4" ≠ ascii "http" := by decide
  have socks5 : ascii "socks5" ≠ ascii "http" := by decide
  rcases known with rfl | rfl | rfl
  · simp [droidRelays, ProxyType.text, httpRelays, forwardedPorts]
  · simp [droidRelays, ProxyType.text, socks4, forwardedPorts]
  · simp [droidRelays, ProxyType.text, socks5, forwardedPorts]

theorem appRelays_ports (type : Bytes) (known : type = ascii "http" ∨ type = ascii "socks") :
    ((appRelays type).map (·.1)).Nodup ∧ ∀ port,
      port ∈ (appRelays type).map (·.1) ↔ port ∈ (redirectedPorts type).map (·.2) := by
  have socks : ascii "socks" ≠ ascii "http" := by decide
  rcases known with rfl | rfl
  · simp [appRelays, httpRelays, redirectedPorts, forwardedPorts]
  · simp [appRelays, redirectedPorts, socks, forwardedPorts]

/-! ### Strings that the file does not hold -/

/-- In a file that is accepted every string is one that the file can hold, if none of them starts a
comment. -/
theorem quoting_of_configured {platform : Platform} {args : ProxyArgs} (worded : Worded args.values)
    {relays : List (Nat × Bytes)} (filled : relays ≠ [])
    (types : ∀ relay ∈ relays, relay.2 ∈ relaySubsystems) {more : List (Bytes × ConfValue)}
    (readable : isReadable more = true) {texts : List Bytes}
    (quotes : Quotes args.values texts more)
    (known : ∀ text ∈ texts, 0 ∉ text ∧ Unmarked text) (margins : Margins)
    {configs : List RedsocksConfig}
    (started : configured platform
      (writeConf args baseText (some (relayConf relays more margins).source)) = some configs) :
    Quoting args.values more := by
  rw [writeConf_source args (relayConf_readable types readable margins)] at started
  obtain ⟨text, same, accepts, -⟩ := configured_some started
  obtain rfl := Option.some.inj same
  have nulFree := relayFile_noNul margins worded types quotes fun text member => (known text member).1
  have quotable : ∀ assign ∈ more, assign.2.WellFormed args.values := by
    intro assign member
    obtain ⟨-, name, quoted, listed⟩ := quotes assign member
    rw [quoted]
    exact (known _ listed).2.1
  have wellFormed := relayFile_wellFormed_of margins worded types
    (fun assign member => (quotes assign member).1) quotable
  have unmarked : ∀ token ∈ [baseConf, relayConf relays more margins].flatMap
      (ConfText.tokens args.values), token.isQuotedMark = false := by
    intro token member
    obtain ⟨conf, listed, inConf⟩ := List.mem_flatMap.mp member
    rcases token_cases inConf with plain | ⟨block, inBlocks, assign, inBlock, name, quoted, rfl⟩
    · simp [Token.isQuotedMark, plain]
    · have added := quoted_added margins listed inBlocks inBlock quoted
      obtain ⟨-, other, alike, inTexts⟩ := quotes assign added
      rw [quoted] at alike
      cases alike
      simp [Token.isQuotedMark, (known _ inTexts).2.2]
  have plain := punctuation_of_accepts wellFormed nulFree unmarked accepts
  intro assign member
  obtain ⟨key, name, quoted, listed⟩ := quotes assign member
  obtain ⟨relay, rest, rfl⟩ := List.exists_cons_of_ne_nil filled
  have inBlock : assign ∈ (relayBlock more margins relay).assigns := by simp [relayBlock, member]
  have inBlocks : relayBlock more margins relay ∈
      (relayConf (relay :: rest) more margins).blocks := by simp [relayConf]
  have token : ⟨.cstr, args.values name⟩ ∈
      (relayConf (relay :: rest) more margins).tokens args.values :=
    token_of_quoted inBlocks inBlock quoted
  obtain ⟨nulFree, quotable, mark⟩ := known _ listed
  refine ⟨key, name, quoted, nulFree, quotable, ?_, mark⟩
  exact plain _ (List.mem_flatMap.mpr ⟨_, by simp, token⟩) rfl

/-! ### ProxyDroid -/

def cntlmArgs : ProxyArgs where
  type := ascii "http"
  host := loopback.text
  port := decimal 8025
  auth := ascii "false"
  user := []
  pass := []
  domain := []

section

variable {platform : Platform} {device : Device} {bundle : Bundle} {host : Ipv4}

theorem startedRelays_cntlm (wide : 32 ≤ platform.longBits)
    (cntlm : usesCntlm (onStart bundle) = true) :
    startedRelays platform bundle =
      some (httpRelays.map (relayConfig loopback.value 8025 none none)).reverse := by
  have narrow : 16 ≤ platform.longBits := by omega
  have first : firstCommand (startScript (onStart bundle) ++ ascii "\nexit\n") =
      some (literalCommand cntlmStart) := by
    have fields : ∀ field ∈ cntlmStart, isField field = true :=
      fun field member => isField_of_literal (cntlmStart_literal field member)
    have words : fieldWords cntlmStart = cntlmStart.map literal :=
      fieldWords_literal cntlmStart_literal
    have begin : Reader.start = Reader.between [] [] := rfl
    have read : firstCommand (line cntlmStart) = some (literalCommand cntlmStart) := by
      rw [firstCommand, begin, Reader.feed_fields [] [] fields (by rw [words]; simp [cntlmStart]),
        words]
      rfl
    rw [startScript, if_pos cntlm, cntlmScript_lines, List.flatMap_cons, List.append_assoc]
    exact firstCommand_append _ read
  have program : cntlmStart.head? = some (base ++ ascii "proxy.sh") := rfl
  have start : cntlmStart.getD 1 [] = ascii "start" := rfl
  have args : ProxyArgs.ofArguments cntlmStart = cntlmArgs := by
    have address : ascii "127.0.0.1" = loopback.text := by decide
    have number : ascii "8025" = decimal 8025 := by decide
    simp [ProxyArgs.ofArguments, cntlmStart, cntlmArgs, address, number]
  have written : writtenConf (startScript (onStart bundle)) = droidProxySh cntlmArgs := by
    rw [writtenConf, first, Option.bind_some, Command.writtenConf, literalCommand,
      arguments_literal, Option.bind_some, if_pos ⟨program, start⟩, args]
  have known : ascii "http" ∈ [ascii "http", ascii "socks4", ascii "socks5"] := List.mem_cons_self
  have relays : droidRelays (ascii "http") = httpRelays := if_pos rfl
  have set : Upstreams platform cntlmArgs.values loopback.value 8025 :=
    upstreams_ipv4 narrow rfl rfl (by decide)
  obtain ⟨margins, text⟩ := droidText_source known false
  have source : droidText cntlmArgs.type cntlmArgs.auth =
      some (relayConf (droidRelays (ascii "http")) (credentials false) margins).source := text
  rw [startedRelays, written, droidProxySh, source, configured_relays narrow cntlmArgs
    (worded_ipv4 rfl rfl) set (droidRelays_known known) (by simp) margins, relays]
  rfl

theorem upstream_known (served : bundle.proxyType ≠ .httpTunnel) :
    (upstream (onStart bundle)).proxyType = .http ∨
      (upstream (onStart bundle)).proxyType = .socks4 ∨
        (upstream (onStart bundle)).proxyType = .socks5 := by
  have kept : (onStart bundle).proxyType = bundle.proxyType := rfl
  rw [upstream, kept]
  cases kind : bundle.proxyType with
  | httpTunnel => exact absurd kind served
  | http => simp
  | https => simp
  | socks4 => simp
  | socks5 => simp
  | spdy => simp

theorem droid_listens (wide : 32 ≤ platform.longBits) (hostText : bundle.host = host.text)
    (bounded : bundle.port < 2 ^ 16) (supported : DroidSupported bundle) :
    DroidListens platform device bundle := by
  have narrow : 16 ≤ platform.longBits := by omega
  obtain ⟨rules, chosen, forwarded⟩ := chosenRules_ports device bundle
  have ports := droidRelays_ports (upstream_known supported.served)
  cases cntlm : usesCntlm (onStart bundle) with
  | true =>
      have http : (upstream (onStart bundle)).proxyType = .http := by
        simp only [usesCntlm, Bool.and_eq_true, beq_iff_eq] at cntlm
        exact cntlm.1.1
      rw [http] at ports forwarded
      exact ⟨_, rules, startedRelays_cntlm wide cntlm, chosen,
        oneEach_relays forwarded ports.1 ports.2⟩
  | false =>
      obtain ⟨address, port, hostArg, portArg, small⟩ := upstream_address hostText bounded
      obtain ⟨margins, source⟩ := serviceArgs_source supported.served
      have set : Upstreams platform (serviceArgs (onStart bundle)).values address.value port :=
        upstreams_ipv4 narrow hostArg (congrArg decimal portArg) small
      have safe : bundle.isAuth = true → Holdable (serviceArgs (onStart bundle)).user ∧
          Holdable (serviceArgs (onStart bundle)).pass := by
        intro auth
        have user : (serviceArgs (onStart bundle)).user = bundle.user := if_pos auth
        have pass : (serviceArgs (onStart bundle)).pass = bundle.password := if_pos auth
        rw [user, pass]
        exact supported.held (by simp [writesCredentials, auth, cntlm])
      have nulFree : ¬(0 ∈ (onStart bundle).user ∨ 0 ∈ (onStart bundle).password) := by
        cases auth : bundle.isAuth with
        | true => exact not_or.mpr ⟨(safe auth).1.nulFree, (safe auth).2.nulFree⟩
        | false => simp [onStart, auth]
      have started : startedRelays platform bundle = configured platform
          (droidProxySh (serviceArgs (onStart bundle))) := by
        rw [startedRelays, startScript_proxy cntlm, writtenConf_proxyScript hostText,
          if_neg nulFree]
      rw [source, configured_relays narrow _ (worded_ipv4 hostArg (congrArg decimal portArg)) set
        (droidRelays_known (upstream_text supported.served)) safe margins] at started
      exact ⟨_, rules, started, chosen, oneEach_relays forwarded ports.1 ports.2⟩

theorem tunnel_unheard (hostText : bundle.host = host.text)
    (tunnel : bundle.proxyType = .httpTunnel) : ¬DroidListens platform device bundle := by
  rintro ⟨relays, rules, started, chosen, -, same⟩
  have kind : (upstream (onStart bundle)).proxyType = .httpTunnel := by
    have kept : (onStart bundle).proxyType = bundle.proxyType := rfl
    simp [upstream, kept, tunnel]
  have direct : usesCntlm (onStart bundle) = false := by simp [usesCntlm, kind]
  obtain ⟨others, alike, forwarded⟩ := chosenRules_ports device bundle
  obtain rfl := Option.some.inj (alike.symm.trans chosen)
  have empty : relays = [] := by
    rw [startedRelays, startScript_proxy direct, writtenConf_proxyScript hostText] at started
    split at started
    · cases started
    · have text : droidText (serviceArgs (onStart bundle)).type
          (serviceArgs (onStart bundle)).auth = none := by
        have type : (serviceArgs (onStart bundle)).type = ascii "http-tunnel" := by
          rw [serviceArgs, kind]
          rfl
        have others : ascii "http-tunnel" ≠ ascii "http" ∧ ascii "http-tunnel" ≠ ascii "socks5" ∧
            ascii "http-tunnel" ≠ ascii "socks4" := by decide
        rw [type, droidText, if_neg others.1, if_neg others.2.1, if_neg others.2.2]
      rw [droidProxySh, text, configured_base] at started
      exact (Option.some.inj started).symm
  subst empty
  have heard := (same 8123).mpr (by rw [forwarded, kind]; decide)
  simp at heard

theorem droid_supported (hostText : bundle.host = host.text) (bounded : bundle.port < 2 ^ 16)
    (unmarked : writesCredentials bundle = true → Unmarked bundle.user ∧ Unmarked bundle.password)
    (listens : DroidListens platform device bundle) : DroidSupported bundle := by
  have served : bundle.proxyType ≠ .httpTunnel := fun tunnel =>
    tunnel_unheard hostText tunnel listens
  refine ⟨served, fun writes => ?_⟩
  obtain ⟨relays, rules, started, -⟩ := listens
  have plain := unmarked writes
  simp only [writesCredentials, Bool.and_eq_true, Bool.not_eq_true'] at writes
  obtain ⟨auth, direct⟩ := writes
  have user : (onStart bundle).user = bundle.user := if_pos auth
  have password : (onStart bundle).password = bundle.password := if_pos auth
  obtain ⟨address, port, hostArg, portArg, -⟩ := upstream_address hostText bounded
  obtain ⟨margins, source⟩ := serviceArgs_source served
  rw [startedRelays, startScript_proxy direct, writtenConf_proxyScript hostText, user,
    password] at started
  split at started
  · cases started
  · rename_i nulFree
    rw [not_or] at nulFree
    rw [source, auth] at started
    have known := droidRelays_known (upstream_text served)
    have filled : droidRelays (upstream (onStart bundle)).proxyType.text ≠ [] := by
      unfold droidRelays
      split <;> simp [httpRelays]
    have args : (serviceArgs (onStart bundle)).values (ascii "user") = bundle.user ∧
        (serviceArgs (onStart bundle)).values (ascii "pass") = bundle.password := ⟨user, password⟩
    have texts : ∀ text ∈ [(serviceArgs (onStart bundle)).values (ascii "user"),
        (serviceArgs (onStart bundle)).values (ascii "pass")], 0 ∉ text ∧ Unmarked text := by
      rw [args.1, args.2]
      simp [nulFree, plain]
    have quoting := quoting_of_configured (worded_ipv4 hostArg (congrArg decimal portArg)) filled
      (fun relay member => (known relay member).2) (credentials_readable true)
      (credentials_quotes _ true) texts margins started
    obtain ⟨-, name, same, holds⟩ := quoting (ascii "login", .quoted (ascii "user"))
      List.mem_cons_self
    obtain ⟨-, other, alike, alsoHolds⟩ := quoting (ascii "password", .quoted (ascii "pass"))
      (List.mem_cons_of_mem _ List.mem_cons_self)
    cases same
    cases alike
    rw [args.1] at holds
    rw [args.2] at alsoHolds
    exact ⟨holds, alsoHolds⟩

end

/-! ### The other app -/

section

variable {platform : Platform} {args : ProxyArgs} {host : Ipv4} {port : Nat}

theorem app_listens (wide : 32 ≤ platform.longBits) (hostText : args.host = host.text)
    (portText : args.port = decimal port) (bounded : port < 2 ^ 16)
    (branch : (appText args.type args.auth).isSome = true) (supported : AppSupported args) :
    AppListens platform args := by
  have narrow : 16 ≤ platform.longBits := by omega
  obtain ⟨rules, loaded, forwarded⟩ := redirectSh_ports args.type
  obtain ⟨known, text⟩ : (args.type = ascii "http" ∨ args.type = ascii "socks") ∧
      appText args.type args.auth = appText args.type (ascii "false") := by
    by_cases http : args.type = ascii "http"
    · have notTrue : args.auth ≠ ascii "true" := fun auth => supported ⟨http, auth⟩
      refine ⟨.inl http, ?_⟩
      rw [http, appText, if_pos rfl, caseAuth, if_neg notTrue] at branch
      split at branch
      · rename_i auth
        rw [auth]
      · simp at branch
    · by_cases socks : args.type = ascii "socks"
      · refine ⟨.inr socks, ?_⟩
        rw [appText, appText, if_neg http, if_neg http]
      · rw [appText, if_neg http, if_neg socks] at branch
        simp at branch
  have listed : args.type ∈ [ascii "http", ascii "socks"] := by simpa using known
  obtain ⟨margins, source⟩ := appText_source listed
  have set : Upstreams platform args.values host.value port :=
    upstreams_ipv4 narrow hostText portText bounded
  have relays : ∀ relay ∈ appRelays args.type, relay.1 < 2 ^ 16 ∧ relay.2 ∈ relaySubsystems := by
    rcases known with http | socks
    · rw [http]
      decide
    · rw [socks]
      decide
  have ports := appRelays_ports args.type known
  have safe : false = true → Holdable args.user ∧ Holdable args.pass := by simp
  have started := configured_relays narrow args (worded_ipv4 hostText portText) set relays safe
    margins
  have same : appProxySh args = writeConf args baseText
      (some (relayConf (appRelays args.type) (credentials false) margins).source) := by
    rw [appProxySh, text, source]
    rfl
  rw [← same] at started
  exact ⟨_, rules, started, loaded, oneEach_relays forwarded ports.1 ports.2⟩

theorem domain_unknown (platform : Platform) (effect : ProxySet.Effect ConfigMemory) (value : Bytes) :
    runAssign platform redsocksSection effect (ascii "domain", value) = none := by
  have found : redsocksSection.entries.find? (·.key == ascii "domain") = none := rfl
  simp [runAssign, found]

theorem app_supported (hostText : args.host = host.text) (portText : args.port = decimal port)
    (known : ∀ text ∈ [args.user, args.pass, args.domain], 0 ∉ text ∧ Unmarked text)
    (listens : AppListens platform args) : AppSupported args := by
  rintro ⟨http, auth⟩
  obtain ⟨relays, rules, started, -⟩ := listens
  have text : appText args.type args.auth = some appHttpTrueText := by
    rw [http, auth]
    rfl
  rw [appProxySh, text, appHttpTrueText_source] at started
  have worded := worded_ipv4 hostText portText
  have types : ∀ relay ∈ httpRelays, relay.2 ∈ relaySubsystems := by decide
  have readable : isReadable (credentialAssigns ++ domainAssigns) = true := by decide
  have keys : isPlainText (ascii "login") = true ∧ isPlainText (ascii "password") = true ∧
      isPlainText (ascii "domain") = true := by decide
  have values : args.values (ascii "user") = args.user ∧ args.values (ascii "pass") = args.pass ∧
      args.values (ascii "domain") = args.domain := ⟨rfl, rfl, rfl⟩
  have quotes : Quotes args.values [args.user, args.pass, args.domain]
      (credentialAssigns ++ domainAssigns) := by
    simp [Quotes, credentialAssigns, domainAssigns, keys, values]
  have quoting := quoting_of_configured worded (by simp [httpRelays]) types readable quotes known _
    started
  have member : (ascii "domain", ConfValue.quoted (ascii "domain")) ∈
      relayAssigns 8123 (ascii "http-relay") ++ (credentialAssigns ++ domainAssigns) := by
    simp [domainAssigns]
  have listed : (8123, ascii "http-relay") ∈ httpRelays := List.mem_cons_self
  have stuck := configured_stuck args worded types readable quoting ⟨0, 0, 0⟩ listed member
    fun effect => domain_unknown platform effect _
  rw [stuck] at started
  cases started

end

/-- Every redirected port has its listener where `proxy.sh` has a branch for the type and the parser
takes what that writes.  The other direction leaves out credentials that start a comment, behind
which the rest of the file is not what it looks like. -/
theorem redirected_ports_listen (platform : Platform) (wide : 32 ≤ platform.longBits) :
    (∀ (device : Device) (bundle : Bundle) (host : Ipv4), bundle.host = host.text →
      bundle.port < 2 ^ 16 →
      (DroidSupported bundle → DroidListens platform device bundle) ∧
      ((writesCredentials bundle = true → Unmarked bundle.user ∧ Unmarked bundle.password) →
        DroidListens platform device bundle → DroidSupported bundle)) ∧
    ∀ (args : ProxyArgs) (host : Ipv4) (port : Nat), args.host = host.text →
      args.port = decimal port → port < 2 ^ 16 →
      (appText args.type args.auth).isSome = true →
      (AppSupported args → AppListens platform args) ∧
      ((∀ text ∈ [args.user, args.pass, args.domain], 0 ∉ text ∧ Unmarked text) →
        AppListens platform args → AppSupported args) := by
  constructor
  · intro device bundle host hostText bounded
    exact ⟨droid_listens wide hostText bounded, droid_supported hostText bounded⟩
  · intro args host port hostText portText bounded branch
    exact ⟨app_listens wide hostText portText bounded branch, app_supported hostText portText⟩

def tunnelBundle : Bundle :=
  { sampleBundle with proxyType := .httpTunnel }

def appArgs (auth : Bytes) : ProxyArgs where
  type := ascii "http"
  host := ascii "10.0.0.1"
  port := ascii "3128"
  auth := auth
  user := ascii "me"
  pass := ascii "secret"
  domain := []

/-- HTTP without a tunnel, in either app. -/
theorem redirected_ports_listen_http :
    DroidListens samplePlatform sampleDevice sampleBundle ∧
      AppListens samplePlatform (appArgs (ascii "false")) := by
  have wide : 32 ≤ samplePlatform.longBits := by decide
  have hostText : ascii "10.0.0.1" = Ipv4.text ⟨10, 0, 0, 1⟩ := by decide +kernel
  have portText : ascii "3128" = decimal 3128 := by decide
  have bounded : 3128 < 2 ^ 16 := by decide
  obtain ⟨droid, app⟩ := redirected_ports_listen samplePlatform wide
  refine ⟨(droid sampleDevice sampleBundle _ hostText bounded).1 ⟨?_, fun _ => ?_⟩,
    (app (appArgs (ascii "false")) _ 3128 hostText portText bounded (by decide)).1 ?_⟩
  · exact show ProxyType.http ≠ .httpTunnel by decide
  · have holds : ∀ text ∈ [ascii "me", ascii "secret"], 0 ∉ text ∧ isQuotable text = true ∧
        isPunctuationText text = false ∧ isMarkText text = false := by decide +kernel
    simp only [List.mem_cons, List.not_mem_nil, or_false, forall_eq_or_imp, forall_eq] at holds
    obtain ⟨⟨user, quotable, punctuation, mark⟩, password, alsoQuotable, alsoPunctuation,
      alsoMark⟩ := holds
    exact ⟨⟨user, quotable, punctuation, mark⟩,
      ⟨password, alsoQuotable, alsoPunctuation, alsoMark⟩⟩
  · rintro ⟨-, auth⟩
    exact absurd auth (show ascii "false" ≠ ascii "true" by decide)

/-- Three ports are redirected for a tunnel, and nothing listens; with a login and HTTP the file of
the other app is refused. -/
theorem tunnel_and_login_unheard :
    ¬DroidListens samplePlatform sampleDevice tunnelBundle ∧
      ¬AppListens samplePlatform (appArgs (ascii "true")) := by
  have hostText : ascii "10.0.0.1" = Ipv4.text ⟨10, 0, 0, 1⟩ := by decide +kernel
  have portText : ascii "3128" = decimal 3128 := by decide
  refine ⟨tunnel_unheard hostText rfl, fun listens => ?_⟩
  refine app_supported hostText portText ?_ listens ⟨rfl, rfl⟩
  have known : ∀ text ∈ [ascii "me", ascii "secret", ([] : Bytes)],
      0 ∉ text ∧ isQuotable text = true ∧ isMarkText text = false := by decide +kernel
  exact known

end ProxySet.App
