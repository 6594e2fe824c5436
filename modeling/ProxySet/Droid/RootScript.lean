import ProxySet.Droid.RuleSet
import ProxySet.Lib.ShellScore

/-!
The scripts that `enableProxy` gives to the root shell, read by that shell: which
settings leave them the commands and arguments that they are meant to have.
-/

namespace ProxySet.Droid

open Shell

/-! ### What is meant -/

def atDomain (domain : Bytes) : Bytes :=
  if domain = [] then ascii "@local" else ascii "@" ++ domain

def proxyFields (service : Service) : List Bytes :=
  [base ++ ascii "proxy.sh", ascii "start", (upstream service).proxyType.text,
    (upstream service).proxyHost, decimal (upstream service).proxyPort, service.auth]

def cntlmStart : List Bytes :=
  [base ++ ascii "proxy.sh", ascii "start", ascii "http", ascii "127.0.0.1", ascii "8025",
    ascii "false"]

def cntlmFields (service : Service) : List Bytes :=
  [base ++ ascii "cntlm", ascii "-P", base ++ ascii "cntlm.pid", ascii "-l", ascii "8025",
    ascii "-u", service.user ++ atDomain service.domain, ascii "-p", service.password,
    (upstream service).proxyHost ++ 58 :: decimal (upstream service).proxyPort]

/-- The arguments of the commands that start the proxy, each credential one of them. -/
def intendedStart (service : Service) : List (List Bytes) :=
  if usesCntlm service then [cntlmStart, cntlmFields service]
  else [proxyFields service ++ [service.user, service.password]]

def stunnelFields : List Bytes :=
  [base ++ ascii "stunnel", base ++ ascii "stunnel.conf"]

def shrpxFields (service : Service) : List Bytes :=
  [base ++ ascii "shrpx", ascii "-D", ascii "-k", ascii "-p", ascii "-f", ascii "127.0.0.1,8126",
    ascii "-b", service.host ++ 44 :: decimal service.port,
    ascii "--pid-file=" ++ base ++ ascii "shrpx.pid"]

def intendedTunnel (service : Service) : List (List (List Bytes)) :=
  match service.proxyType with
  | .https => [[stunnelFields]]
  | .spdy => [[shrpxFields service]]
  | _ => []

def intendedRules (device : Device) (service : Service) : List (List Bytes) :=
  (ruleLines device service (upstream service).proxyType).map
    (RuleLine.words device.iptables.path)

def intendedScripts (device : Device) (bundle : Bundle) : List (List (List Bytes)) :=
  intendedTunnel (onStart bundle) ++
    [intendedStart (onStart bundle), intendedRules device (onStart bundle)]

def literalCommand (arguments : List Bytes) : Command where
  words := arguments.map literal
  ender := 10

/-- The shell reads exactly the commands that are meant, all of their arguments literal. -/
def ReadsAsIntended (device : Device) (bundle : Bundle) : Prop :=
  (rootScripts device bundle).map readCommands =
    (intendedScripts device bundle).map fun commands => some (commands.map literalCommand)

instance (device : Device) (bundle : Bundle) : Decidable (ReadsAsIntended device bundle) :=
  inferInstanceAs (Decidable (_ = _))

/-- The names and the numbers of arguments of the commands in a script. -/
def skeleton (commands : List Command) : List (Option Word × Nat) :=
  commands.map fun command => (command.words.head?, command.words.length)

def readSkeletons (device : Device) (bundle : Bundle) :
    List (Option (List (Option Word × Nat))) :=
  (rootScripts device bundle).map fun script => (readCommands script).map skeleton

/-- The same choices with other strings, and as many bypass entries that are valid. -/
structure SameChoices (device : Device) (first second : Bundle) : Prop where
  host : first.host = second.host
  port : first.port = second.port
  proxyType : first.proxyType = second.proxyType
  isAuth : first.isAuth = second.isAuth
  isNTLM : first.isNTLM = second.isNTLM
  isDNSProxy : first.isDNSProxy = second.isDNSProxy
  isAutoSetProxy : first.isAutoSetProxy = second.isAutoSetProxy
  isBypassApps : first.isBypassApps = second.isBypassApps
  bypassed : (bypassed device first.bypassAddrs).length =
    (bypassed device second.bypassAddrs).length

/-- With cntlm the credentials stand unquoted in the script; otherwise no byte but NUL, which no
argument can hold, does any harm. -/
def SafeCredentials (bundle : Bundle) : Prop :=
  if usesCntlm (onStart bundle) then
    (∀ byte ∈ bundle.user, isLiteral byte = true) ∧
      (∀ byte ∈ bundle.user.head?, startsWord byte = true) ∧
      (∀ byte ∈ bundle.domain, isLiteral byte = true) ∧ isLiteralWord bundle.password = true
  else bundle.isAuth = true → 0 ∉ bundle.user ∧ 0 ∉ bundle.password

instance (bundle : Bundle) : Decidable (SafeCredentials bundle) :=
  decidable_of_iff
    ((if usesCntlm (onStart bundle) then
      bundle.user.all isLiteral && bundle.user.head?.all startsWord &&
        bundle.domain.all isLiteral && isLiteralWord bundle.password
    else !bundle.isAuth || !bundle.user.contains 0 && !bundle.password.contains 0) = true) <| by
    unfold SafeCredentials
    split
    · cases bundle.user with
      | nil => simp
      | cons first rest => simp [and_assoc]
    · cases bundle.isAuth with
      | true => simp
      | false => simp

/-! ### Quoted credentials -/

theorem feed_preserve (commands : List Command) (words : List Word) (word : Word) (text : Bytes) :
    (Reader.inDouble commands words word).feed (preserve text) =
      Reader.inDouble commands words (word ++ text.map Piece.quoted) := by
  induction text generalizing word with
  | nil => simp [preserve]
  | cons c rest ih =>
      by_cases special : c = 92 ∨ c = 36 ∨ c = 96 ∨ c = 34
      · have escaped : ((Reader.inDouble commands words word).feedByte 92).feedByte c =
            Reader.inDouble commands words (word ++ [Piece.quoted c]) := by
          rcases special with rfl | rfl | rfl | rfl <;> rfl
        rw [preserve, if_pos special, Reader.feed_cons, Reader.feed_cons, escaped, ih]
        simp
      · have plain : (Reader.inDouble commands words word).feedByte c =
            Reader.inDouble commands words (word ++ [Piece.quoted c]) := by
          simp only [not_or] at special
          simp [Reader.feedByte, Reader.inDouble, Reader.feedDouble, Reader.push, Reader.enter,
            special]
        rw [preserve, if_neg special, Reader.feed_cons, plain, ih]
        simp

theorem quoted_eq_literal (text : Bytes) : text.map Piece.quoted = literal text ↔ 0 ∉ text := by
  induction text with
  | nil => simp [literal]
  | cons byte rest ih =>
      have here : Piece.quoted byte = Piece.lit byte ↔ ¬0 = byte := by
        by_cases nul : byte = 0
        · simp [Piece.quoted, nul]
        · simp [Piece.quoted, nul, Ne.symm nul]
      rw [literal, List.map_cons, List.map_cons, List.cons.injEq, here, List.mem_cons, not_or]
      rw [literal] at ih
      rw [ih]

theorem proxyScript_split (service : Service) :
    proxyScript service = (proxyFields service).flatMap (· ++ [32]) ++
      34 :: (preserve service.user ++ 34 :: 32 :: 34 :: (preserve service.password ++ [34])) := by
  have start : ascii "proxy.sh start" = ascii "proxy.sh" ++ 32 :: ascii "start" := by
    repeat rw [ascii_ofList]
    decide
  have blank : ascii " " = [32] := by decide
  have opens : ascii " \"" = [32, 34] := by decide
  have between : ascii "\" \"" = [34, 32, 34] := by decide
  have closes : ascii "\"" = [34] := by decide
  simp [proxyScript, proxyFields, start, blank, opens, between, closes]

theorem base_literal (name : Bytes) (all : name.all isLiteral = true) :
    isLiteralWord (base ++ name) = true := by
  have front : isLiteralWord base = true := by
    unfold base
    rw [ascii_ofList]
    decide
  exact isLiteralWord_append front (List.all_eq_true.mp all)

section

variable {bundle : Bundle} {host : Ipv4}

theorem upstream_host (hostText : bundle.host = host.text) :
    isAddr (upstream (onStart bundle)).proxyHost = true := by
  unfold upstream
  split
  · decide
  · have same : (onStart bundle).host = host.text := hostText
    rw [same]
    exact isAddr_text host

theorem proxyFields_literal (hostText : bundle.host = host.text) :
    ∀ field ∈ proxyFields (onStart bundle), isLiteralWord field = true := by
  have types : ∀ proxyType : ProxyType, isLiteralWord proxyType.text = true := by
    intro proxyType
    cases proxyType <;> decide
  have auth : isLiteralWord (onStart bundle).auth = true := by
    have same : (onStart bundle).auth = if bundle.isAuth then ascii "true" else ascii "false" := rfl
    rw [same]
    split <;> decide
  simp only [proxyFields, List.mem_cons, List.not_mem_nil, or_false, forall_eq_or_imp, forall_eq]
  exact ⟨base_literal _ (by decide), by decide, types _,
    RuleLine.isLiteralWord_addr (upstream_host hostText),
    RuleLine.isLiteralWord_addr (RuleLine.isAddr_decimal _), auth⟩

theorem feed_proxyScript (hostText : bundle.host = host.text) :
    Reader.start.feed (proxyScript (onStart bundle)) =
      Reader.inside [] ((proxyFields (onStart bundle)).map literal ++
        [(onStart bundle).user.map Piece.quoted]) ((onStart bundle).password.map Piece.quoted) := by
  have literals := proxyFields_literal hostText
  have fields : ∀ field ∈ proxyFields (onStart bundle), isField field = true :=
    fun field member => isField_of_literal (literals field member)
  have begin : Reader.start = Reader.between [] [] := rfl
  rw [proxyScript_split, begin, Reader.feed_append, Reader.feed_blanks _ _ fields,
    fieldWords_literal literals, Reader.feed_cons, Reader.between_quote, Reader.feed_append,
    feed_preserve, Reader.feed_cons, Reader.inDouble_quote, Reader.feed_cons,
    Reader.inside_blank, Reader.feed_cons, Reader.between_quote, Reader.feed_append,
    feed_preserve]
  simp

theorem readCommands_proxyScript (hostText : bundle.host = host.text) :
    readCommands (proxyScript (onStart bundle)) =
      some [⟨(proxyFields (onStart bundle)).map literal ++
        [(onStart bundle).user.map Piece.quoted, (onStart bundle).password.map Piece.quoted], 10⟩] := by
  rw [readCommands, feed_proxyScript hostText]
  simp [Reader.inside, Reader.endWord, Reader.endLine, Reader.endCommand]

theorem proxyScript_intended (hostText : bundle.host = host.text) :
    readCommands (proxyScript (onStart bundle)) =
        some [literalCommand (proxyFields (onStart bundle) ++
          [(onStart bundle).user, (onStart bundle).password])] ↔
      0 ∉ (onStart bundle).user ∧ 0 ∉ (onStart bundle).password := by
  rw [readCommands_proxyScript hostText, literalCommand, List.map_append, Option.some.injEq,
    List.cons.injEq, Command.mk.injEq, List.append_cancel_left_eq, List.map_cons, List.map_cons,
    List.map_nil, List.cons.injEq, List.cons.injEq, quoted_eq_literal, quoted_eq_literal]
  simp

/-! ### Unquoted credentials -/

theorem cntlmScript_lines (service : Service) :
    cntlmScript service = [cntlmStart, cntlmFields service].flatMap line := by
  have start : ascii "proxy.sh start http 127.0.0.1 8025 false\n" = ascii "proxy.sh" ++ 32 ::
      (ascii "start" ++ 32 :: (ascii "http" ++ 32 :: (ascii "127.0.0.1" ++ 32 ::
        (ascii "8025" ++ 32 :: (ascii "false" ++ [10]))))) := by
    repeat rw [ascii_ofList]
    decide
  have cntlm : ascii "cntlm -P " = ascii "cntlm" ++ 32 :: (ascii "-P" ++ [32]) := by
    repeat rw [ascii_ofList]
    decide
  have options : ascii "cntlm.pid -l 8025 -u " = ascii "cntlm.pid" ++ 32 :: (ascii "-l" ++ 32 ::
      (ascii "8025" ++ 32 :: (ascii "-u" ++ [32]))) := by
    repeat rw [ascii_ofList]
    decide
  have password : ascii " -p " = 32 :: (ascii "-p" ++ [32]) := by decide
  have blank : ascii " " = [32] := by decide
  have colon : ascii ":" = [58] := by decide
  have newline : ascii "\n" = [10] := by decide
  simp only [cntlmScript, start, cntlm, options, password, blank, colon, newline, cntlmStart,
    cntlmFields, atDomain, List.flatMap_cons, List.flatMap_nil, line, joinFields,
    List.intercalate, List.intersperse_cons_cons, List.intersperse_singleton, List.flatten_cons,
    List.flatten_nil, List.append_assoc, List.cons_append, List.nil_append, List.append_nil]

theorem endpoint_literal {host : Bytes} (known : isAddr host = true) (mark : UInt8)
    (goes : isLiteral mark = true) (port : Nat) :
    isLiteralWord (host ++ mark :: decimal port) = true := by
  refine isLiteralWord_append (RuleLine.isLiteralWord_addr known) ?_
  intro byte member
  rcases List.mem_cons.mp member with rfl | member
  · exact goes
  · exact isLiteral_of_startsWord (RuleLine.isAddrByte_facts
      (RuleLine.digit_isAddrByte (decimal_isdigit port byte member))).2

theorem cntlmStart_literal : ∀ field ∈ cntlmStart, isLiteralWord field = true := by
  simp only [cntlmStart, List.mem_cons, List.not_mem_nil, or_false, forall_eq_or_imp, forall_eq]
  exact ⟨base_literal _ (by decide), by decide, by decide,
    by decide, by decide, by decide⟩

theorem atDomain_split (domain : Bytes) : ∃ rest, atDomain domain = 64 :: rest ∧
    ((∀ byte ∈ rest, isLiteral byte = true) ↔ ∀ byte ∈ domain, isLiteral byte = true) := by
  by_cases empty : domain = []
  · have known : (ascii "local").all isLiteral = true := by decide
    refine ⟨ascii "local", ?_, ?_⟩
    · rw [atDomain, if_pos empty]
      decide
    · subst empty
      exact ⟨fun _ byte member => absurd member (by simp), fun _ => List.all_eq_true.mp known⟩
  · have sign : ascii "@" = [64] := by decide
    exact ⟨domain, by rw [atDomain, if_neg empty, sign]; rfl, Iff.rfl⟩

theorem userWord_literal (user domain : Bytes) :
    isLiteralWord (user ++ atDomain domain) = true ↔
      (∀ byte ∈ user, isLiteral byte = true) ∧ (∀ byte ∈ user.head?, startsWord byte = true) ∧
        ∀ byte ∈ domain, isLiteral byte = true := by
  obtain ⟨rest, split, tail⟩ := atDomain_split domain
  have starts : startsWord 64 = true := rfl
  have goes : isLiteral 64 = true := rfl
  rw [split, ← tail]
  cases user with
  | nil => simp [isLiteralWord, starts]
  | cons byte user =>
      simp only [List.cons_append, isLiteralWord, Bool.and_eq_true, List.all_eq_true,
        List.mem_append, List.mem_cons, List.head?_cons, Option.mem_def, Option.some.injEq]
      constructor
      · rintro ⟨first, all⟩
        refine ⟨?_, fun other same => same ▸ first, fun other member => all other (by simp [member])⟩
        rintro other (rfl | member)
        · exact isLiteral_of_startsWord first
        · exact all other (.inl member)
      · rintro ⟨user, first, domain⟩
        refine ⟨first byte rfl, ?_⟩
        rintro other (member | rfl | member)
        · exact user other (.inr member)
        · exact goes
        · exact domain other member

theorem cntlmScript_intended (hostText : bundle.host = host.text) :
    readCommands (cntlmScript (onStart bundle)) =
        some ([cntlmStart, cntlmFields (onStart bundle)].map literalCommand) ↔
      isLiteralWord ((onStart bundle).user ++ atDomain (onStart bundle).domain) = true ∧
        isLiteralWord (onStart bundle).password = true := by
  have filled : ∀ fields ∈ [cntlmStart, cntlmFields (onStart bundle)], fields ≠ [] := by
    simp [cntlmStart, cntlmFields]
  have fixed : ∀ name ∈ [ascii "cntlm", ascii "cntlm.pid"],
      name.all isLiteral = true := by decide
  have options : ∀ word ∈ [ascii "-P", ascii "-l", ascii "8025", ascii "-u", ascii "-p"],
      isLiteralWord word = true := by decide
  have upstream := endpoint_literal (upstream_host hostText) 58 rfl
    (upstream (onStart bundle)).proxyPort
  have whole := readCommands_lines_iff filled
  rw [cntlmScript_lines]
  refine whole.trans ?_
  simp only [List.mem_cons, List.not_mem_nil, or_false, forall_eq_or_imp, forall_eq, cntlmFields]
  simp only [List.mem_cons, List.not_mem_nil, or_false, forall_eq_or_imp, forall_eq] at fixed options
  constructor
  · rintro ⟨-, -, -, -, -, -, -, user, -, password, -⟩
    exact ⟨user, password⟩
  · rintro ⟨user, password⟩
    exact ⟨cntlmStart_literal, base_literal _ fixed.1, options.1, base_literal _ fixed.2,
      options.2.1, options.2.2.1, options.2.2.2.1, user, options.2.2.2.2, password, upstream⟩

/-! ### All scripts -/

theorem startScript_intended (hostText : bundle.host = host.text) :
    readCommands (startScript (onStart bundle)) =
        some ((intendedStart (onStart bundle)).map literalCommand) ↔ SafeCredentials bundle := by
  unfold startScript intendedStart SafeCredentials
  split
  · rename_i cntlm
    have flags : bundle.isAuth = true ∧ bundle.isNTLM = true := by
      simp only [usesCntlm, Bool.and_eq_true] at cntlm
      exact ⟨cntlm.1.2, cntlm.2⟩
    have user : (onStart bundle).user = bundle.user := if_pos flags.1
    have password : (onStart bundle).password = bundle.password := if_pos flags.1
    have domain : (onStart bundle).domain = bundle.domain := if_pos flags.2
    rw [cntlmScript_intended hostText, user, password, domain, userWord_literal]
    simp only [and_assoc]
  · refine (proxyScript_intended hostText).trans ?_
    by_cases auth : bundle.isAuth = true
    · have user : (onStart bundle).user = bundle.user := if_pos auth
      have password : (onStart bundle).password = bundle.password := if_pos auth
      simp [user, password, auth]
    · have user : (onStart bundle).user = [] := if_neg auth
      have password : (onStart bundle).password = [] := if_neg auth
      simp [user, password, auth]

theorem rulesScript_intended (device : Device) (hostText : bundle.host = host.text) :
    readCommands (rules device (onStart bundle) (upstream (onStart bundle)).proxyType) =
      some ((intendedRules device (onStart bundle)).map literalCommand) := by
  have readable : ∀ rule ∈ ruleLines device (onStart bundle) (upstream (onStart bundle)).proxyType,
      rule.Readable := fun rule listed => ruleLines_readable hostText listed
  have replaced := replace_lines device.iptables.path readable
  rw [rules, cmd_lines, ← programName, replaced,
    readCommands_ruleLines (iptables_path _) readable, intendedRules, List.map_map]
  rfl

theorem stunnel_reads (service : Service) :
    ((stunnelEffects service).filterMap Effect.rootScript).map readCommands =
      [some [literalCommand stunnelFields]] := by
  have name : ascii "stunnel " = ascii "stunnel" ++ [32] := by decide
  have script : base ++ ascii "stunnel " ++ base ++ ascii "stunnel.conf" =
      joinFields stunnelFields := by
    simp [name, joinFields, List.intercalate, stunnelFields]
  have names : ∀ name ∈ [ascii "stunnel", ascii "stunnel.conf"],
      name.all isLiteral = true := by decide
  simp only [List.mem_cons, List.not_mem_nil, or_false, forall_eq_or_imp, forall_eq] at names
  have literals : ∀ field ∈ stunnelFields, isLiteralWord field = true := by
    simp only [stunnelFields, List.mem_cons, List.not_mem_nil, or_false, forall_eq_or_imp, forall_eq]
    exact ⟨base_literal _ names.1, base_literal _ names.2⟩
  have only : (stunnelEffects service).filterMap Effect.rootScript =
      [base ++ ascii "stunnel " ++ base ++ ascii "stunnel.conf"] := by
    unfold stunnelEffects
    split <;> rfl
  rw [only, List.map_singleton, script,
    readCommands_joinFields (by simp [stunnelFields]) literals]
  rfl

theorem shrpx_reads (service : Service) (known : isAddr service.host = true) :
    ((shrpxEffects service).filterMap Effect.rootScript).map readCommands =
      [some [literalCommand (shrpxFields service)]] := by
  have front : ascii "shrpx -D -k -p -f 127.0.0.1,8126 -b " = ascii "shrpx" ++ 32 ::
      (ascii "-D" ++ 32 :: (ascii "-k" ++ 32 :: (ascii "-p" ++ 32 :: (ascii "-f" ++ 32 ::
        (ascii "127.0.0.1,8126" ++ 32 :: (ascii "-b" ++ [32])))))) := by
    repeat rw [ascii_ofList]
    decide
  have comma : ascii "," = [44] := by decide
  have pid : ascii " --pid-file=" = 32 :: ascii "--pid-file=" := by decide
  have only : (shrpxEffects service).filterMap Effect.rootScript =
      [joinFields (shrpxFields service)] := by
    simp [shrpxEffects, Effect.rootScript, front, comma, pid, joinFields, List.intercalate,
      shrpxFields]
  have options : ∀ word ∈ [ascii "-D", ascii "-k", ascii "-p", ascii "-f", ascii "127.0.0.1,8126",
      ascii "-b", ascii "--pid-file="], isLiteralWord word = true := by decide
  have names : ∀ name ∈ [ascii "shrpx", ascii "shrpx.pid"],
      name.all isLiteral = true := by decide
  have path : base.all isLiteral = true := by decide
  simp only [List.mem_cons, List.not_mem_nil, or_false, forall_eq_or_imp, forall_eq] at options names
  have literals : ∀ field ∈ shrpxFields service, isLiteralWord field = true := by
    simp only [shrpxFields, List.mem_cons, List.not_mem_nil, or_false, forall_eq_or_imp, forall_eq]
    exact ⟨base_literal _ names.1, options.1, options.2.1, options.2.2.1, options.2.2.2.1,
      options.2.2.2.2.1, options.2.2.2.2.2.1, endpoint_literal known 44 rfl _,
      isLiteralWord_append (isLiteralWord_append options.2.2.2.2.2.2 (List.all_eq_true.mp path))
        (List.all_eq_true.mp names.2)⟩
  rw [only, List.map_singleton, readCommands_joinFields (by simp [shrpxFields]) literals]
  rfl

theorem tunnel_intended (hostText : bundle.host = host.text) :
    ((tunnelEffects (onStart bundle)).filterMap Effect.rootScript).map readCommands =
      (intendedTunnel (onStart bundle)).map fun commands => some (commands.map literalCommand) := by
  have known : isAddr (onStart bundle).host = true := by
    have same : (onStart bundle).host = host.text := hostText
    rw [same]
    exact isAddr_text host
  cases kind : (onStart bundle).proxyType <;> simp only [tunnelEffects, intendedTunnel, kind]
  case https => exact stunnel_reads (onStart bundle)
  case spdy => exact shrpx_reads (onStart bundle) known
  all_goals rfl

theorem readsAsIntended_iff (device : Device) (hostText : bundle.host = host.text) :
    ReadsAsIntended device bundle ↔ SafeCredentials bundle := by
  have scripts : rootScripts device bundle =
      (tunnelEffects (onStart bundle)).filterMap Effect.rootScript ++
        [startScript (onStart bundle),
          rules device (onStart bundle) (upstream (onStart bundle)).proxyType] := by
    simp [rootScripts, enableProxy, List.filterMap_append, Effect.rootScript]
  rw [ReadsAsIntended, scripts, intendedScripts, List.map_append, List.map_append,
    tunnel_intended hostText, List.append_cancel_left_eq, List.map_cons, List.map_cons,
    List.map_cons, List.map_cons, rulesScript_intended device hostText, List.cons.injEq,
    startScript_intended hostText]
  simp

end

/-! ### Two settings -/

def argumentSkeleton (arguments : List Bytes) : Option Word × Nat :=
  (arguments.head?.map literal, arguments.length)

theorem skeleton_literal (commands : List (List Bytes)) :
    skeleton (commands.map literalCommand) = commands.map argumentSkeleton := by
  rw [skeleton, List.map_map]
  refine List.map_congr_left fun arguments _ => ?_
  simp [literalCommand, argumentSkeleton]

section

variable {device : Device} {first second : Bundle} (same : SameChoices device first second)

include same

theorem upstream_type : (upstream (onStart first)).proxyType =
    (upstream (onStart second)).proxyType := by
  have kind : (onStart first).proxyType = (onStart second).proxyType := same.proxyType
  rw [upstream, upstream, kind]
  split <;> rfl

theorem rules_skeleton : (intendedRules device (onStart first)).map argumentSkeleton =
    (intendedRules device (onStart second)).map argumentSkeleton := by
  have host : (onStart first).host = (onStart second).host := same.host
  have dns : (onStart first).isDNSProxy = (onStart second).isDNSProxy := same.isDNSProxy
  have auto : (onStart first).isAutoSetProxy = (onStart second).isAutoSetProxy :=
    same.isAutoSetProxy
  have apps : (onStart first).isBypassApps = (onStart second).isBypassApps := same.isBypassApps
  have fresh : (onStart first).apps = (onStart second).apps := rfl
  have addrs : ((bypassed device (onStart first).bypassAddrs).map RuleLine.returnTo).map
        (argumentSkeleton ∘ RuleLine.words device.iptables.path) =
      ((bypassed device (onStart second).bypassAddrs).map RuleLine.returnTo).map
        (argumentSkeleton ∘ RuleLine.words device.iptables.path) := by
    have constant (addr : Bytes) : ((argumentSkeleton ∘ RuleLine.words device.iptables.path) ∘
        RuleLine.returnTo) addr = (some (literal device.iptables.path), 11) := rfl
    have lengths : (bypassed device (onStart first).bypassAddrs).length =
        (bypassed device (onStart second).bypassAddrs).length := same.bypassed
    rw [List.map_map, List.map_map, List.map_congr_left fun addr _ => constant addr,
      List.map_congr_left fun addr _ => constant addr, List.map_const', List.map_const', lengths]
  rw [intendedRules, intendedRules, List.map_map, List.map_map, upstream_type same, ruleLines,
    ruleLines, host, dns, auto, apps, fresh]
  simp only [List.map_append, addrs]

theorem start_skeleton : (intendedStart (onStart first)).map argumentSkeleton =
    (intendedStart (onStart second)).map argumentSkeleton := by
  have cntlm : usesCntlm (onStart first) = usesCntlm (onStart second) := by
    have auth : (onStart first).isAuth = (onStart second).isAuth := same.isAuth
    have ntlm : (onStart first).isNTLM = (onStart second).isNTLM := same.isNTLM
    rw [usesCntlm, usesCntlm, upstream_type same, auth, ntlm]
  rw [intendedStart, intendedStart, cntlm]
  split <;> rfl

theorem tunnel_skeleton :
    (intendedTunnel (onStart first)).map (fun commands => commands.map argumentSkeleton) =
      (intendedTunnel (onStart second)).map fun commands => commands.map argumentSkeleton := by
  have kind : (onStart first).proxyType = (onStart second).proxyType := same.proxyType
  rw [intendedTunnel, intendedTunnel, kind]
  split <;> rfl

theorem intended_skeleton :
    (intendedScripts device first).map (fun commands => skeleton (commands.map literalCommand)) =
      (intendedScripts device second).map fun commands =>
        skeleton (commands.map literalCommand) := by
  simp only [skeleton_literal]
  rw [intendedScripts, intendedScripts, List.map_append, List.map_append, tunnel_skeleton same,
    List.map_cons, List.map_cons, List.map_cons, List.map_cons, start_skeleton same,
    rules_skeleton same]

end

theorem readSkeletons_of_intended {device : Device} {bundle : Bundle}
    (intended : ReadsAsIntended device bundle) :
    readSkeletons device bundle = (intendedScripts device bundle).map fun commands =>
      some (skeleton (commands.map literalCommand)) := by
  have split : readSkeletons device bundle =
      ((rootScripts device bundle).map readCommands).map fun commands => commands.map skeleton := by
    rw [readSkeletons, List.map_map]
    rfl
  rw [split, intended, List.map_map]
  rfl

/-- The root shell gets the commands that are meant exactly if the credentials are safe, and then
other strings give the same commands with as many arguments. -/
theorem root_scripts_read (device : Device) (host : Ipv4) (bundle : Bundle)
    (hostText : bundle.host = host.text) :
    (ReadsAsIntended device bundle ↔ SafeCredentials bundle) ∧
      ∀ other, SameChoices device bundle other → SafeCredentials bundle → SafeCredentials other →
        readSkeletons device bundle = readSkeletons device other := by
  refine ⟨readsAsIntended_iff device hostText, fun other same safe otherSafe => ?_⟩
  have otherHost : other.host = host.text := same.host.symm.trans hostText
  have intended := (readsAsIntended_iff device hostText).mpr safe
  have otherIntended := (readsAsIntended_iff device otherHost).mpr otherSafe
  have skeletons := congrArg (List.map some) (intended_skeleton same)
  rw [List.map_map, List.map_map] at skeletons
  rw [readSkeletons_of_intended intended, readSkeletons_of_intended otherIntended]
  exact skeletons

theorem root_scripts_read_sample :
    (ReadsAsIntended sampleDevice sampleBundle ↔ SafeCredentials sampleBundle) ∧
      ∀ other, SameChoices sampleDevice sampleBundle other → SafeCredentials sampleBundle →
        SafeCredentials other →
        readSkeletons sampleDevice sampleBundle = readSkeletons sampleDevice other :=
  root_scripts_read sampleDevice ⟨10, 0, 0, 1⟩ sampleBundle (by decide)

def ntlmBundle (password : Bytes) : Bundle :=
  { sampleBundle with isNTLM := true, password := password, isBypassApps := false }

/-- A password may end the command of cntlm and start one of its own. -/
theorem ntlm_password_runs :
    SameChoices sampleDevice (ntlmBundle (ascii "a")) (ntlmBundle (ascii "a;reboot;")) ∧
      ¬ReadsAsIntended sampleDevice (ntlmBundle (ascii "a;reboot;")) ∧
      readSkeletons sampleDevice (ntlmBundle (ascii "a")) ≠
        readSkeletons sampleDevice (ntlmBundle (ascii "a;reboot;")) ∧
      ⟨[literal (ascii "reboot")], 59⟩ ∈
        (((rootScripts sampleDevice (ntlmBundle (ascii "a;reboot;"))).map readCommands).headD
          none).getD [] := by
  refine ⟨?_, ?_, ?_, ?_⟩
  · constructor <;> rfl
  · rw [readsAsIntended_iff sampleDevice (by decide : _ = (⟨10, 0, 0, 1⟩ : Ipv4).text)]
    decide +kernel
  · decide +kernel
  · decide +kernel

end ProxySet.Droid
