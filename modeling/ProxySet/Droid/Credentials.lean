import ProxySet.Droid.ProxyConf
import ProxySet.Droid.RootScript
import ProxySet.Redsocks.ConfigValues

/-!
The user and the password from the settings to redsocks: through the command of
`enableProxy`, the words that the shell makes of it, the file that `proxy.sh` writes
and the parser that reads it.
-/

namespace ProxySet.Droid

open Shell

/-! ### From the script to the file -/

def ProxyArgs.ofArguments (arguments : List Bytes) : ProxyArgs where
  type := arguments.getD 2 []
  host := arguments.getD 3 []
  port := arguments.getD 4 []
  auth := arguments.getD 5 []
  user := arguments.getD 6 []
  pass := arguments.getD 7 []
  domain := []

def Command.writtenConf (command : Command) : Option Bytes :=
  (command.words.mapM argument).bind fun arguments =>
    if arguments.head? = some (base ++ ascii "proxy.sh") ∧ arguments.getD 1 [] = ascii "start" then
      droidProxySh (.ofArguments arguments)
    else none

/-- `runRootCommand` puts a newline and an `exit` behind the script. -/
def writtenConf (script : Bytes) : Option Bytes :=
  (firstCommand (script ++ ascii "\nexit\n")).bind Command.writtenConf

def serviceArgs (service : Service) : ProxyArgs where
  type := (upstream service).proxyType.text
  host := (upstream service).proxyHost
  port := decimal (upstream service).proxyPort
  auth := service.auth
  user := service.user
  pass := service.password
  domain := []

/-- The relays of the redsocks that `enableProxy` starts, if it starts one. -/
def startedRelays (platform : Platform) (bundle : Bundle) : Option (List RedsocksConfig) :=
  configured platform (writtenConf (startScript (onStart bundle)))

theorem mapM_argument_append (fields : List Bytes) (words : List Word) :
    (fields.map literal ++ words).mapM argument =
      (words.mapM argument).map (fields ++ ·) := by
  induction fields with
  | nil =>
      rw [List.map_nil, List.nil_append]
      cases words.mapM argument <;> rfl
  | cons field fields ih =>
      rw [List.map_cons, List.cons_append, List.mapM_cons, ih, argument_literal]
      cases words.mapM argument <;> rfl

theorem argument_quoted (text : Bytes) :
    argument (text.map Piece.quoted) = if 0 ∈ text then none else some text := by
  split
  · rename_i nul
    induction text with
    | nil => simp at nul
    | cons byte rest ih =>
        by_cases zero : byte = 0
        · subst zero
          rfl
        · have later := (List.mem_cons.mp nul).resolve_left (Ne.symm zero)
          have inner := ih later
          simp only [argument] at inner
          simp [argument, List.mapM_cons, inner, Piece.quoted, zero]
  · rename_i nulFree
    rw [(quoted_eq_literal text).mpr nulFree, argument_literal]

section

variable {bundle : Bundle} {host : Ipv4}

theorem firstCommand_proxyScript (hostText : bundle.host = host.text) :
    firstCommand (proxyScript (onStart bundle) ++ ascii "\nexit\n") =
      some ⟨(proxyFields (onStart bundle)).map literal ++
        [(onStart bundle).user.map Piece.quoted, (onStart bundle).password.map Piece.quoted], 10⟩ := by
  have ending : ascii "\nexit\n" = [10] ++ ascii "exit\n" := by decide
  rw [ending, ← List.append_assoc]
  refine firstCommand_append _ ?_
  rw [firstCommand, Reader.feed_append, feed_proxyScript hostText]
  simp [Reader.between]

theorem writtenConf_proxyScript (hostText : bundle.host = host.text) :
    writtenConf (proxyScript (onStart bundle)) =
      if 0 ∈ (onStart bundle).user ∨ 0 ∈ (onStart bundle).password then none
      else droidProxySh (serviceArgs (onStart bundle)) := by
  have program : (proxyFields (onStart bundle) ++
      [(onStart bundle).user, (onStart bundle).password]).head? = some (base ++ ascii "proxy.sh") :=
    rfl
  have start : (proxyFields (onStart bundle) ++
      [(onStart bundle).user, (onStart bundle).password]).getD 1 [] = ascii "start" := rfl
  have args : ProxyArgs.ofArguments (proxyFields (onStart bundle) ++
      [(onStart bundle).user, (onStart bundle).password]) = serviceArgs (onStart bundle) := rfl
  rw [writtenConf, firstCommand_proxyScript hostText, Option.bind_some, Command.writtenConf,
    mapM_argument_append, List.mapM_cons, List.mapM_cons, List.mapM_nil, argument_quoted,
    argument_quoted]
  by_cases user : 0 ∈ (onStart bundle).user
  · simp [user]
  · by_cases password : 0 ∈ (onStart bundle).password
    · simp [password]
    · simp only [user, password, or_self, if_false, Option.bind_eq_bind, Option.bind_some,
        Option.pure_def, Option.map_some]
      rw [if_pos ⟨program, start⟩, args]

theorem startScript_proxy (direct : usesCntlm (onStart bundle) = false) :
    startScript (onStart bundle) = proxyScript (onStart bundle) := by
  simp [startScript, direct]

end

/-! ### The file -/

def Quotes (values : Bytes → Bytes) (texts : List Bytes) (more : List (Bytes × ConfValue)) : Prop :=
  ∀ assign ∈ more, isPlainText assign.1 = true ∧
    ∃ name, assign.2 = .quoted name ∧ values name ∈ texts

theorem credentials_quotes (values : Bytes → Bytes) (auth : Bool) :
    Quotes values [values (ascii "user"), values (ascii "pass")] (credentials auth) := by
  cases auth with
  | false => simp [Quotes, credentials]
  | true =>
      have keys : isPlainText (ascii "login") = true ∧ isPlainText (ascii "password") = true := by
        decide
      simp [Quotes, credentials, credentialAssigns, keys]

section

variable {values : Bytes → Bytes} {relays : List (Nat × Bytes)} {more : List (Bytes × ConfValue)}
  {texts : List Bytes} (margins : Margins) (worded : Worded values)
  (types : ∀ relay ∈ relays, relay.2 ∈ relaySubsystems) (quotes : Quotes values texts more)

def assignLine (values : Bytes → Bytes) (assign : Bytes × ConfValue) : Bytes :=
  32 :: (assign.1 ++ [32, 61, 32]) ++ assign.2.render values ++ [59]

include worded types in
theorem relayFile_line {line : Bytes}
    (listed : line ∈ [baseConf, relayConf relays more margins].flatMap (ConfText.lines values)) :
    PlainLine line ∨ ∃ assign ∈ more, line = assignLine values assign := by
  have outer {blocks : List ConfBlock} {tail : Nat}
      (inside : line ∈ ConfText.lines values ⟨blocks, tail⟩) :
      PlainLine line ∨ ∃ block ∈ blocks, line ∈ block.lines values := by
    simp only [ConfText.lines, List.mem_append, List.mem_cons, List.mem_flatMap, List.not_mem_nil,
      or_false] at inside
    rcases inside with (rfl | found) | rfl
    · exact .inl (by simp [PlainLine])
    · exact .inr found
    · exact .inl (plainLine_blanks _)
  simp only [List.flatMap_cons, List.flatMap_nil, List.append_nil, List.mem_append] at listed
  rcases listed with base | relayed
  · rcases outer base with plain | ⟨block, member, inside⟩
    · exact .inl plain
    · rw [List.mem_singleton.mp member] at inside
      refine .inl (line_plain baseBlock_wellFormed ?_ line inside)
      simp [baseBlock]
  · rcases outer relayed with plain | ⟨block, member, inside⟩
    · exact .inl plain
    · obtain ⟨relay, known, rfl⟩ := List.mem_map.mp member
      have fixed : (relayBlock [] margins relay).WellFormed values :=
        relayBlock_wellFormed worded (types relay known) (by simp) (by simp) margins
      have plain := line_plain fixed (by simp [relayBlock, relayAssigns])
      simp only [relayBlock, ConfBlock.lines, List.map_append, List.mem_append, List.mem_cons,
        List.append_nil] at inside plain
      rcases inside with (opens | fixed | added) | closes
      · exact .inl (plain line (.inl (.inl opens)))
      · exact .inl (plain line (.inl (.inr fixed)))
      · obtain ⟨assign, member, rfl⟩ := List.mem_map.mp added
        exact .inr ⟨assign, member, rfl⟩
      · exact .inl (plain line (.inr closes))

include quotes

theorem assignLine_quotesOnly : ∀ assign ∈ more, QuotesOnly texts (assignLine values assign) := by
  intro assign member
  obtain ⟨key, name, quoted, listed⟩ := quotes assign member
  have plain := List.all_eq_true.mp (isQuotable_of_plainText key)
  refine .inr ⟨32 :: (assign.1 ++ [32, 61, 32]), values name, listed, ?_, ?_, ?_⟩
  · simp [assignLine, quoted, ConfValue.render]
  · have noQuote : 34 ∉ assign.1 := fun inside => absurd (plain 34 inside) (by decide)
    simp [noQuote]
  · have noEscape : 92 ∉ assign.1 := fun inside => absurd (plain 92 inside) (by decide)
    simp [noEscape]

include worded types

theorem relayFile_quotesOnly : ∀ line ∈
    [baseConf, relayConf relays more margins].flatMap (ConfText.lines values),
    QuotesOnly texts line := by
  intro line listed
  rcases relayFile_line margins worded types listed with plain | ⟨assign, member, rfl⟩
  · exact .inl fun quote => (plain 34 quote).2 rfl
  · exact assignLine_quotesOnly quotes assign member

theorem relayFile_noNul (nulFree : ∀ text ∈ texts, 0 ∉ text) :
    0 ∉ [baseConf, relayConf relays more margins].flatMap (ConfText.render values) := by
  rw [file_lines]
  intro inside
  obtain ⟨line, listed, nul⟩ := List.mem_flatMap.mp inside
  have here : 0 ∈ line := by simpa using nul
  rcases relayFile_line margins worded types listed with plain | ⟨assign, member, rfl⟩
  · exact (plain 0 here).1 rfl
  · obtain ⟨key, name, quoted, known⟩ := quotes assign member
    have inKey := nul_of_plainText key
    have inText := nulFree _ known
    simp [assignLine, quoted, ConfValue.render, inKey, inText] at here

end

/-! ### The whole way -/

theorem configured_some {platform : Platform} {file : Option Bytes} {relays : List RedsocksConfig}
    (started : configured platform file = some relays) :
    ∃ text, file = some text ∧
      (parserRun platform configSections .start text).returned = some 0 ∧
      (parserRun platform configSections .start text).vars.memory.instances = relays := by
  obtain ⟨text, same, final⟩ := Option.bind_eq_some_iff.mp started
  dsimp only at final
  split at final
  · rename_i accepts
    exact ⟨text, same, accepts, Option.some.inj final⟩
  · cases final

/-- A login and a password that redsocks has read are strings that the file can hold. -/
theorem holdable_of_configured {platform : Platform} {args : ProxyArgs} (worded : Worded args.values)
    {relays : List (Nat × Bytes)} (types : ∀ relay ∈ relays, relay.2 ∈ relaySubsystems) {auth : Bool}
    (margins : Margins) (user : 0 ∉ args.user ∧ 10 ∉ args.user)
    (pass : 0 ∉ args.pass ∧ 10 ∉ args.pass) {configs : List RedsocksConfig}
    (started : configured platform
      (writeConf args baseText (some (relayConf relays (credentials auth) margins).source)) =
        some configs)
    {config : RedsocksConfig} (listed : config ∈ configs) (login : config.login = some args.user)
    (password : config.password = some args.pass) : Holdable args.user ∧ Holdable args.pass := by
  have readable := relayConf_readable types (credentials_readable auth) margins
  have quotes : Quotes args.values [args.user, args.pass] (credentials auth) :=
    credentials_quotes args.values auth
  rw [writeConf_source args readable] at started
  obtain ⟨text, same, accepts, instances⟩ := configured_some started
  obtain rfl := Option.some.inj same
  have nulFree := relayFile_noNul margins worded types quotes (by simp [user.1, pass.1])
  have sourced := (parserRun_sourced nulFree accepts).instances config (by rwa [instances])
  have ofUser := sourced.login args.user login
  have ofPass := sourced.password args.pass password
  have lines := relayFile_quotesOnly margins worded types quotes
  have afterUser (special : isQuotable args.user = false) :
      args.user.length < args.pass.length ∧ isQuotable args.pass = false := by
    obtain ⟨other, member, longer, alike⟩ :=
      ofUser.longer special user.2 (file_lines args.values _) lines
    simp only [List.mem_cons, List.not_mem_nil, or_false] at member
    rcases member with rfl | rfl
    · omega
    · exact ⟨longer, alike⟩
  have afterPass (special : isQuotable args.pass = false) :
      args.pass.length < args.user.length ∧ isQuotable args.user = false := by
    obtain ⟨other, member, longer, alike⟩ :=
      ofPass.longer special pass.2 (file_lines args.values _) lines
    simp only [List.mem_cons, List.not_mem_nil, or_false] at member
    rcases member with rfl | rfl
    · exact ⟨longer, alike⟩
    · omega
  -- each of the two would have to be longer than the other
  have userQuotable : isQuotable args.user = true := by
    by_contra special
    have first := afterUser (Bool.eq_false_iff.mpr special)
    have second := afterPass first.2
    omega
  have passQuotable : isQuotable args.pass = true := by
    by_contra special
    have first := afterPass (Bool.eq_false_iff.mpr special)
    have second := afterUser first.2
    omega
  exact ⟨⟨user.1, userQuotable, ofUser.noPunctuation, ofUser.noMark⟩,
    ⟨pass.1, passQuotable, ofPass.noPunctuation, ofPass.noMark⟩⟩

section

variable {platform : Platform} {bundle : Bundle} {host : Ipv4}

theorem upstream_text (served : bundle.proxyType ≠ .httpTunnel) :
    (upstream (onStart bundle)).proxyType.text ∈ [ascii "http", ascii "socks4", ascii "socks5"] := by
  have kept : (onStart bundle).proxyType = bundle.proxyType := rfl
  rw [upstream, kept]
  cases kind : bundle.proxyType with
  | httpTunnel => exact absurd kind served
  | http => simp [ProxyType.text]
  | https => simp [ProxyType.text]
  | socks4 => simp [ProxyType.text]
  | socks5 => simp [ProxyType.text]
  | spdy => simp [ProxyType.text]

theorem upstream_address (hostText : bundle.host = host.text) (bounded : bundle.port < 2 ^ 16) :
    ∃ (address : Ipv4) (port : Nat), (upstream (onStart bundle)).proxyHost = address.text ∧
      (upstream (onStart bundle)).proxyPort = port ∧ port < 2 ^ 16 := by
  unfold upstream
  split
  · exact ⟨loopback, 8126, by decide, rfl, by decide⟩
  · exact ⟨host, bundle.port, hostText, rfl, bounded⟩

theorem serviceArgs_source (served : bundle.proxyType ≠ .httpTunnel) :
    ∃ margins, droidProxySh (serviceArgs (onStart bundle)) =
      writeConf (serviceArgs (onStart bundle)) baseText
        (some (relayConf (droidRelays (upstream (onStart bundle)).proxyType.text)
          (credentials bundle.isAuth) margins).source) := by
  have auth : (onStart bundle).auth = authText bundle.isAuth := rfl
  obtain ⟨margins, text⟩ := droidText_source (upstream_text served) bundle.isAuth
  refine ⟨margins, ?_⟩
  rw [droidProxySh, serviceArgs, auth, text]

end

/-- The user and the password of the settings are the login and the password of every relay that
`enableProxy` starts, and it starts one. -/
def CredentialsSurvive (platform : Platform) (bundle : Bundle) : Prop :=
  ∃ relays, startedRelays platform bundle = some relays ∧ relays ≠ [] ∧
    ∀ relay ∈ relays, relay.login = some bundle.user ∧ relay.password = some bundle.password

/-- Settings with which `proxy.sh` writes the credentials into the file. -/
structure LoggingIn (bundle : Bundle) (host : Ipv4) : Prop where
  hostText : bundle.host = host.text
  bounded : bundle.port < 2 ^ 16
  served : bundle.proxyType ≠ .httpTunnel
  auth : bundle.isAuth = true
  direct : usesCntlm (onStart bundle) = false
  user : 0 ∉ bundle.user ∧ 10 ∉ bundle.user
  password : 0 ∉ bundle.password ∧ 10 ∉ bundle.password

section

variable {platform : Platform} {bundle : Bundle} {host : Ipv4} (settings : LoggingIn bundle host)

include settings

theorem LoggingIn.args : (serviceArgs (onStart bundle)).user = bundle.user ∧
    (serviceArgs (onStart bundle)).pass = bundle.password :=
  ⟨if_pos settings.auth, if_pos settings.auth⟩

theorem LoggingIn.worded : Worded (serviceArgs (onStart bundle)).values := by
  obtain ⟨address, port, hostArg, portArg, -⟩ :=
    upstream_address settings.hostText settings.bounded
  exact worded_ipv4 hostArg (congrArg decimal portArg)

theorem LoggingIn.started : ∃ margins, startedRelays platform bundle = configured platform
    (writeConf (serviceArgs (onStart bundle)) baseText
      (some (relayConf (droidRelays (upstream (onStart bundle)).proxyType.text)
        (credentials true) margins).source)) := by
  obtain ⟨margins, source⟩ := serviceArgs_source settings.served
  rw [settings.auth] at source
  have sameUser : (onStart bundle).user = bundle.user := if_pos settings.auth
  have samePassword : (onStart bundle).password = bundle.password := if_pos settings.auth
  refine ⟨margins, ?_⟩
  rw [startedRelays, startScript_proxy settings.direct, writtenConf_proxyScript settings.hostText,
    if_neg, source]
  rw [sameUser, samePassword]
  exact not_or.mpr ⟨settings.user.1, settings.password.1⟩

theorem LoggingIn.holdable (survive : CredentialsSurvive platform bundle) :
    Holdable bundle.user ∧ Holdable bundle.password := by
  obtain ⟨margins, started⟩ := settings.started 
  obtain ⟨relays, ran, some, told⟩ := survive
  obtain ⟨relay, rest, rfl⟩ := List.exists_cons_of_ne_nil some
  have first := told relay List.mem_cons_self
  have types := fun relay member => (droidRelays_known (upstream_text settings.served) relay member).2
  have user := settings.user
  have password := settings.password
  rw [started] at ran
  rw [← settings.args.1] at first user ⊢
  rw [← settings.args.2] at first password ⊢
  exact holdable_of_configured settings.worded types margins user password ran List.mem_cons_self
    first.1 first.2

theorem LoggingIn.survive (wide : 32 ≤ platform.longBits) (user : Holdable bundle.user)
    (password : Holdable bundle.password) : CredentialsSurvive platform bundle := by
  have narrow : 16 ≤ platform.longBits := by omega
  obtain ⟨margins, started⟩ := settings.started 
  obtain ⟨address, port, hostArg, portArg, small⟩ :=
    upstream_address settings.hostText settings.bounded
  have set : Upstreams platform (serviceArgs (onStart bundle)).values address.value port :=
    upstreams_ipv4 narrow hostArg (congrArg decimal portArg) small
  have known := droidRelays_known (upstream_text settings.served)
  have safe : true = true → Holdable (serviceArgs (onStart bundle)).user ∧
      Holdable (serviceArgs (onStart bundle)).pass := by
    rw [settings.args.1, settings.args.2]
    exact fun _ => ⟨user, password⟩
  refine ⟨_, started.trans (configured_relays narrow _ settings.worded set known safe margins),
    ?_, ?_⟩
  · have some : droidRelays (upstream (onStart bundle)).proxyType.text ≠ [] := by
      unfold droidRelays
      split <;> simp [httpRelays]
    simpa using some
  · intro relay member
    obtain ⟨type, -, rfl⟩ := List.mem_map.mp (List.mem_reverse.mp member)
    rw [settings.args.1, settings.args.2]
    exact ⟨rfl, rfl⟩

end

/-- A string survives if it has no quote and no backslash in it and is not what the parser takes for
punctuation or the mark of a comment. -/
theorem credentials_survive_iff (platform : Platform) (wide : 32 ≤ platform.longBits)
    (bundle : Bundle) (host : Ipv4) (settings : LoggingIn bundle host) :
    CredentialsSurvive platform bundle ↔ Holdable bundle.user ∧ Holdable bundle.password := by
  constructor
  · exact settings.holdable
  · rintro ⟨user, password⟩
    exact settings.survive wide user password

def loginBundle (user password : Bytes) : Bundle :=
  { sampleBundle with user := user, password := password }

theorem loginBundle_settings {user password : Bytes} (userKnown : 0 ∉ user ∧ 10 ∉ user)
    (passwordKnown : 0 ∉ password ∧ 10 ∉ password) :
    LoggingIn (loginBundle user password) ⟨10, 0, 0, 1⟩ where
  hostText := by
    have text : ascii "10.0.0.1" = Ipv4.text ⟨10, 0, 0, 1⟩ := by decide +kernel
    exact text
  bounded := show 3128 < 2 ^ 16 by decide
  served := show ProxyType.http ≠ .httpTunnel by decide
  auth := rfl
  direct := rfl
  user := userKnown
  password := passwordKnown

theorem credentials_survive_expansions :
    CredentialsSurvive samplePlatform (loginBundle (ascii "me$HOME") (ascii "a `b` 'c'")) := by
  have holds : ∀ text ∈ [ascii "me$HOME", ascii "a `b` 'c'"], 0 ∉ text ∧ isQuotable text = true ∧
      isPunctuationText text = false ∧ isMarkText text = false := by decide +kernel
  simp only [List.mem_cons, List.not_mem_nil, or_false, forall_eq_or_imp, forall_eq] at holds
  obtain ⟨⟨user, quotable, punctuation, mark⟩, password, alsoQuotable, alsoPunctuation, alsoMark⟩ :=
    holds
  exact (credentials_survive_iff samplePlatform (by decide) _ ⟨10, 0, 0, 1⟩
    (loginBundle_settings ⟨user, by decide⟩ ⟨password, by decide⟩)).mpr
      ⟨⟨user, quotable, punctuation, mark⟩, ⟨password, alsoQuotable, alsoPunctuation, alsoMark⟩⟩

/-- What is a backslash to the user is an escape to the parser. -/
theorem credentials_with_backslash_lost :
    ¬CredentialsSurvive samplePlatform (loginBundle (ascii "me") (ascii "a\\tb")) := by
  intro survive
  have holds := (loginBundle_settings ⟨by decide, by decide⟩ ⟨by decide, by decide⟩).holdable survive
  exact absurd holds.2.quotable (show ¬isQuotable (ascii "a\\tb") = true by decide)

end ProxySet.Droid
