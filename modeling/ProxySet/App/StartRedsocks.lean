import ProxySet.Droid.ProxyConf
import ProxySet.Droid.RuleLines

/-!
`RedsocksActios.startRedsocks` of the app: the two scripts that it gives to one root
shell, and what they leave on the phone.
-/

namespace ProxySet.App

open Shell Droid

/-! ### The scripts -/

/-- How the root check, redsocks and the commands of `redirect.sh`, in their order, turn out. -/
structure Outcome where
  rooted : Bool
  redsocks : Bool
  iptables : Nat → Bool

def Outcome.allSucceed : Outcome where
  rooted := true
  redsocks := true
  iptables := fun _ => true

structure Phone where
  /-- The OUTPUT chain of the nat table. -/
  chain : List Rule
  conf : Option Bytes
  started : Bool

def Phone.fresh : Phone where
  chain := []
  conf := none
  started := false

structure RootShell where
  phone : Phone
  status : Nat

def parameter (arguments : List Bytes) (number : Nat) : Bytes :=
  arguments.getD number []

def proxyArgs (arguments : List Bytes) : ProxyArgs where
  type := parameter arguments 3
  host := parameter arguments 4
  port := parameter arguments 5
  auth := parameter arguments 6
  user := parameter arguments 7
  pass := parameter arguments 8
  domain := parameter arguments 9

/-- `proxy.sh`, which ends with an `echo`. -/
def proxySh (outcome : Outcome) (arguments : List Bytes) (shell : RootShell) : RootShell :=
  if parameter arguments 1 = ascii "start" then
    { phone :=
        { shell.phone with
          conf := appProxySh (proxyArgs arguments)
          started := outcome.redsocks }
      status := 0 }
  else if parameter arguments 1 = ascii "stop" then
    { phone := { shell.phone with conf := none, started := false }, status := 0 }
  else { shell with status := 0 }

/-- The commands that append a rule each; the status is that of the last one. -/
def runRules (outcome : Outcome) : Nat → List Rule → List Rule × Nat → List Rule × Nat
  | _, [], state => state
  | number, rule :: rules, (chain, _) =>
      runRules outcome (number + 1) rules
        (if outcome.iptables number then (chain ++ [rule], 0) else (chain, 1))

def iptables : Bytes := ascii "iptables"

def redirectRules (type : Bytes) : List Rule :=
  (loadRules iptables (redirectSh type)).getD []

/-- `redirect.sh`; a `case` without a branch for its word succeeds. -/
def redirect (outcome : Outcome) (arguments : List Bytes) (shell : RootShell) : RootShell :=
  if parameter arguments 1 = ascii "start" then
    let ran := runRules outcome 0 (redirectRules (parameter arguments 2)) (shell.phone.chain, 0)
    { phone := { shell.phone with chain := ran.1 }, status := ran.2 }
  else if parameter arguments 1 = ascii "stop" then
    if outcome.iptables 0 then { phone := { shell.phone with chain := [] }, status := 0 }
    else { shell with status := 1 }
  else { shell with status := 0 }

/-! ### startRedsocks -/

def mBasedir : Bytes :=
  ascii "/data/data/com.blazefire.perry.proxy/proxyData"

def runCommand (outcome : Outcome) (shell : RootShell) (command : Command) : RootShell :=
  match command.words.mapM argument with
  | none => shell
  | some arguments =>
      if arguments.head? = some (mBasedir ++ ascii "/proxy.sh") then
        proxySh outcome arguments shell
      else if arguments.head? = some (mBasedir ++ ascii "/redirect.sh") then
        redirect outcome arguments shell
      else shell

/-- `ShellUtils.execCommand` with a root shell; the status is 0 before the first command. -/
def execCommand (outcome : Outcome) (commands : List Bytes) (phone : Phone) : RootShell :=
  match readCommands (commands.flatMap (· ++ ascii "\n") ++ ascii "exit\n") with
  | none => { phone := phone, status := 1 }
  | some lines => lines.foldl (runCommand outcome) { phone := phone, status := 0 }

def command (ip : Bytes) (port : Nat) (proxyType : Bytes) : List Bytes :=
  [mBasedir ++ ascii "/proxy.sh  start " ++ mBasedir ++ ascii " " ++ proxyType ++ ascii " " ++ ip ++
      ascii " " ++ decimal port ++ ascii " false",
    mBasedir ++ ascii "/redirect.sh start " ++ proxyType]

/-- The result of `startRedsocks` and the phone behind it. -/
def startRedsocks (outcome : Outcome) (ip : Bytes) (port : Nat) (proxyType : Bytes)
    (phone : Phone) : Bool × Phone :=
  if outcome.rooted then
    let commandResult := execCommand outcome (command ip port proxyType) phone
    (commandResult.status == 0, commandResult.phone)
  else (true, phone)

def stopRedirect (outcome : Outcome) (phone : Phone) : Phone :=
  (execCommand outcome [mBasedir ++ ascii "/redirect.sh stop"] phone).phone

/-! ### The rules -/

def tcpRule (rule : Option Nat × Nat) : Rule where
  protocol := some .tcp
  destination := none
  dport := rule.1
  uid := none
  target := .redirect rule.2

def indented (rule : RuleLine) : List Bytes :=
  [[], [], []] ++ rule.fields iptables

theorem fieldWords_indented (rule : RuleLine) :
    fieldWords (indented rule) = fieldWords (rule.fields iptables) :=
  rfl

theorem iptables_literal : isLiteralWord iptables = true := by
  decide

theorem loadRules_indented {lines : List RuleLine} (readable : ∀ rule ∈ lines, rule.Readable) :
    loadRules iptables (lines.flatMap fun rule => line (indented rule)) =
      lines.mapM RuleLine.rule? := by
  have nonempty : iptables ≠ [] := by decide
  have known : ∀ fields ∈ lines.map indented, ∀ field ∈ fields, isField field = true := by
    intro fields member field inside
    obtain ⟨rule, listed, rfl⟩ := List.mem_map.mp member
    obtain ⟨rest, split, kinds⟩ := rule.fields_cases iptables
    rw [indented, split] at inside
    simp only [List.mem_append, List.mem_cons, List.not_mem_nil, or_false] at inside
    rcases inside with (rfl | rfl | rfl) | rfl | inside
    · rfl
    · rfl
    · rfl
    · exact isField_of_literal iptables_literal
    · exact RuleLine.isField_of_known (readable rule listed) (kinds field inside)
  have filled : ∀ fields ∈ lines.map indented, fieldWords fields ≠ [] := by
    intro fields member
    obtain ⟨rule, listed, rfl⟩ := List.mem_map.mp member
    rw [fieldWords_indented, RuleLine.fieldWords_fields nonempty (readable rule listed)]
    simp [RuleLine.words, RuleLine.fields, RuleLine.tableFields]
  have text : (lines.flatMap fun rule => line (indented rule)) =
      (lines.map indented).flatMap line := by
    rw [List.flatMap_map]
  rw [loadRules, text, readCommands_lines known filled, Option.bind_some, List.map_map]
  clear known filled text
  induction lines with
  | nil => rfl
  | cons rule lines ih =>
      simp only [List.mem_cons, forall_eq_or_imp] at readable
      rw [List.map_cons, List.mapM_cons, List.mapM_cons, ih readable.2, Function.comp_apply,
        fieldWords_indented, RuleLine.fieldWords_fields nonempty readable.1,
        RuleLine.runRule_words]

theorem redirectSh_http : redirectSh (ascii "http") =
    (forwardLines true .http).flatMap fun rule => line (indented rule) := by
  simp only [redirectSh, if_true, forwardLines]
  repeat rw [ascii_ofList]
  decide +kernel

theorem redirectSh_socks : redirectSh (ascii "socks") =
    (forwardLines true .socks5).flatMap fun rule => line (indented rule) := by
  have other : ascii "socks" ≠ ascii "http" := by decide
  simp only [redirectSh, if_neg other, if_true, forwardLines]
  repeat rw [ascii_ofList]
  decide

/-- The destination ports and local ports of the rules of a type. -/
def redirectedPorts (type : Bytes) : List (Option Nat × Nat) :=
  if type = ascii "http" then forwardedPorts .http
  else if type = ascii "socks" then forwardedPorts .socks5
  else []

theorem loadRules_forward (proxyType : ProxyType) :
    loadRules iptables ((forwardLines true proxyType).flatMap fun rule => line (indented rule)) =
      some ((forwardedPorts proxyType).map tcpRule) := by
  have readable : ∀ rule ∈ forwardLines true proxyType, rule.Readable := by
    intro rule member
    obtain ⟨ports, -, rfl⟩ := List.mem_map.mp member
    simp [RuleLine.Readable, forwardLine]
  rw [loadRules_indented readable, forwardLines]
  induction forwardedPorts proxyType with
  | nil => rfl
  | cons ports rest ih =>
      rw [List.map_cons, List.mapM_cons, ih]
      rfl

theorem loadRules_redirectSh (type : Bytes) :
    loadRules iptables (redirectSh type) = some ((redirectedPorts type).map tcpRule) := by
  unfold redirectedPorts
  by_cases http : type = ascii "http"
  · rw [if_pos http, http, redirectSh_http, loadRules_forward]
  · by_cases socks : type = ascii "socks"
    · rw [if_neg http, if_pos socks, socks, redirectSh_socks, loadRules_forward]
    · rw [if_neg http, if_neg socks, redirectSh, if_neg http, if_neg socks]
      rfl

theorem redirectRules_eq (type : Bytes) :
    redirectRules type = (redirectedPorts type).map tcpRule := by
  rw [redirectRules, loadRules_redirectSh, Option.getD_some]

/-! ### The root shell -/

def installed (outcome : Outcome) : Nat → List Rule → List Rule
  | _, [] => []
  | number, rule :: rules =>
      (if outcome.iptables number then [rule] else []) ++ installed outcome (number + 1) rules

def lastSucceeds (outcome : Outcome) (rules : List Rule) : Bool :=
  rules.isEmpty || outcome.iptables (rules.length - 1)

theorem runRules_fst (outcome : Outcome) (number : Nat) (rules chain : List Rule) (status : Nat) :
    (runRules outcome number rules (chain, status)).1 =
      chain ++ installed outcome number rules := by
  induction rules generalizing number chain status with
  | nil => simp [runRules, installed]
  | cons rule rules ih =>
      rw [runRules, installed]
      split
      · rw [ih, List.append_assoc]
      · rw [ih, List.nil_append]

theorem runRules_snd (outcome : Outcome) (number : Nat) (rule : Rule) (rules : List Rule)
    (state : List Rule × Nat) :
    ((runRules outcome number (rule :: rules) state).2 == 0) =
      outcome.iptables (number + rules.length) := by
  induction rules generalizing number rule state with
  | nil =>
      rw [runRules]
      split <;> simp_all [runRules]
  | cons next rules ih =>
      rw [runRules, ih, List.length_cons]
      congr 1
      omega

theorem runRules_status (outcome : Outcome) (rules chain : List Rule) :
    ((runRules outcome 0 rules (chain, 0)).2 == 0) = lastSucceeds outcome rules := by
  cases rules with
  | nil => rfl
  | cons rule rules =>
      rw [runRules_snd]
      simp [lastSucceeds]

def proxyWords (ip : Bytes) (port : Nat) (proxyType : Bytes) : List Bytes :=
  [mBasedir ++ ascii "/proxy.sh", ascii "start", mBasedir, proxyType, ip, decimal port,
    ascii "false"]

def redirectWords (proxyType : Bytes) : List Bytes :=
  [mBasedir ++ ascii "/redirect.sh", ascii "start", proxyType]

section

variable {ip proxyType : Bytes} (address : isLiteralWord ip = true)
  (word : isLiteralWord proxyType = true) (port : Nat)

include word in
theorem redirectWords_literal : ∀ field ∈ redirectWords proxyType, isLiteralWord field = true := by
  have fixed : isLiteralWord (mBasedir ++ ascii "/redirect.sh") = true ∧
      isLiteralWord (ascii "start") = true := by decide
  simp only [redirectWords, List.mem_cons, List.not_mem_nil, or_false, forall_eq_or_imp, forall_eq]
  exact ⟨fixed.1, fixed.2, word⟩

include address word in
theorem proxyWords_literal :
    ∀ field ∈ proxyWords ip port proxyType, isLiteralWord field = true := by
  have fixed : isLiteralWord (mBasedir ++ ascii "/proxy.sh") = true ∧
      isLiteralWord (ascii "start") = true ∧ isLiteralWord mBasedir = true ∧
      isLiteralWord (ascii "false") = true := by decide
  simp only [proxyWords, List.mem_cons, List.not_mem_nil, or_false, forall_eq_or_imp, forall_eq]
  exact ⟨fixed.1, fixed.2.1, fixed.2.2.1, word, address,
    RuleLine.isLiteralWord_addr (RuleLine.isAddr_decimal port), fixed.2.2.2⟩

theorem command_lines :
    (command ip port proxyType).flatMap (· ++ ascii "\n") ++ ascii "exit\n" =
      [(mBasedir ++ ascii "/proxy.sh") :: [] :: (proxyWords ip port proxyType).tail,
        redirectWords proxyType, [ascii "exit"]].flatMap line := by
  have newline : ascii "\n" = [10] := by decide
  have blank : ascii " " = [32] := by decide
  have start : ascii "/proxy.sh  start " = ascii "/proxy.sh" ++ 32 :: 32 :: (ascii "start" ++ [32]) := by
    decide
  have redirects : ascii "/redirect.sh start " = ascii "/redirect.sh" ++ 32 :: (ascii "start" ++ [32]) := by
    decide
  have off : ascii " false" = 32 :: ascii "false" := by decide
  have leave : ascii "exit\n" = ascii "exit" ++ [10] := by decide
  simp [command, proxyWords, redirectWords, line, joinFields, List.intercalate, newline, blank, start,
    redirects, off, leave]

include address word in
theorem readCommands_command :
    readCommands ((command ip port proxyType).flatMap (· ++ ascii "\n") ++ ascii "exit\n") =
      some [⟨(proxyWords ip port proxyType).map literal, 10⟩,
        ⟨(redirectWords proxyType).map literal, 10⟩, ⟨[literal (ascii "exit")], 10⟩] := by
  have proxies := proxyWords_literal address word port
  have redirects := redirectWords_literal word
  have leaves : isLiteralWord (ascii "exit") = true := by decide
  have words : fieldWords ((mBasedir ++ ascii "/proxy.sh") :: [] :: (proxyWords ip port proxyType).tail) =
      (proxyWords ip port proxyType).map literal := by
    rw [← fieldWords_literal proxies]
    rfl
  have leaving : fieldWords [ascii "exit"] = [literal (ascii "exit")] :=
    fieldWords_literal (by simpa using leaves)
  rw [command_lines, readCommands_lines]
  · simp only [List.map_cons, List.map_nil, words, fieldWords_literal redirects, leaving]
  · simp only [List.mem_cons, List.not_mem_nil, or_false, forall_eq_or_imp, forall_eq]
    refine ⟨⟨isField_of_literal (proxies _ (by simp [proxyWords])), rfl, fun field member => ?_⟩,
      fun field member => isField_of_literal (redirects field member), isField_of_literal leaves⟩
    exact isField_of_literal (proxies field (List.mem_of_mem_tail member))
  · simp only [List.mem_cons, List.not_mem_nil, or_false, forall_eq_or_imp, forall_eq, words,
      fieldWords_literal redirects, leaving]
    simp [proxyWords, redirectWords]

def startArgs (ip : Bytes) (port : Nat) (proxyType : Bytes) : ProxyArgs where
  type := proxyType
  host := ip
  port := decimal port
  auth := ascii "false"
  user := []
  pass := []
  domain := []

theorem runCommand_proxy (outcome : Outcome) (shell : RootShell) :
    runCommand outcome shell ⟨(proxyWords ip port proxyType).map literal, 10⟩ =
      { phone :=
          { shell.phone with
            conf := appProxySh (startArgs ip port proxyType)
            started := outcome.redsocks }
        status := 0 } := by
  have start : parameter (proxyWords ip port proxyType) 1 = ascii "start" := rfl
  have args : proxyArgs (proxyWords ip port proxyType) = startArgs ip port proxyType := rfl
  have program : (proxyWords ip port proxyType).head? = some (mBasedir ++ ascii "/proxy.sh") := rfl
  simp only [runCommand, arguments_literal]
  rw [if_pos program, proxySh, if_pos start, args]

theorem runCommand_redirect (outcome : Outcome) (shell : RootShell) :
    runCommand outcome shell ⟨(redirectWords proxyType).map literal, 10⟩ =
      let ran := runRules outcome 0 (redirectRules proxyType) (shell.phone.chain, 0)
      { phone := { shell.phone with chain := ran.1 }, status := ran.2 } := by
  have start : parameter (redirectWords proxyType) 1 = ascii "start" := rfl
  have type : parameter (redirectWords proxyType) 2 = proxyType := rfl
  have other : (redirectWords proxyType).head? ≠ some (mBasedir ++ ascii "/proxy.sh") := by
    simp only [redirectWords, List.head?_cons]
    decide
  have program : (redirectWords proxyType).head? = some (mBasedir ++ ascii "/redirect.sh") := rfl
  simp only [runCommand, arguments_literal]
  rw [if_neg other, if_pos program, redirect, if_pos start, type]

theorem runCommand_exit (outcome : Outcome) (shell : RootShell) :
    runCommand outcome shell ⟨[literal (ascii "exit")], 10⟩ = shell := by
  have exits : [literal (ascii "exit")].mapM argument = some [ascii "exit"] :=
    arguments_literal [ascii "exit"]
  have proxy : [ascii "exit"].head? ≠ some (mBasedir ++ ascii "/proxy.sh") := by decide
  have redirect : [ascii "exit"].head? ≠ some (mBasedir ++ ascii "/redirect.sh") := by
    decide
  simp only [runCommand, exits]
  rw [if_neg proxy, if_neg redirect]

include address word in
theorem startRedsocks_rooted (outcome : Outcome) (rooted : outcome.rooted = true) (phone : Phone) :
    startRedsocks outcome ip port proxyType phone =
      (lastSucceeds outcome (redirectRules proxyType),
        { chain := phone.chain ++ installed outcome 0 (redirectRules proxyType)
          conf := appProxySh (startArgs ip port proxyType)
          started := outcome.redsocks }) := by
  rw [startRedsocks, if_pos rooted, execCommand, readCommands_command address word port]
  simp only [List.foldl_cons, List.foldl_nil, runCommand_proxy, runCommand_redirect, runCommand_exit,
    runRules_fst, runRules_status]

theorem startRedsocks_unrooted (outcome : Outcome) (unrooted : outcome.rooted = false)
    (phone : Phone) : startRedsocks outcome ip port proxyType phone = (true, phone) := by
  simp [startRedsocks, unrooted]

end

def stopWords : List Bytes :=
  [mBasedir ++ ascii "/redirect.sh", ascii "stop"]

theorem readCommands_stop :
    readCommands ([mBasedir ++ ascii "/redirect.sh stop"].flatMap (· ++ ascii "\n") ++ ascii "exit\n") =
      some [⟨stopWords.map literal, 10⟩, ⟨[literal (ascii "exit")], 10⟩] := by
  have text : [mBasedir ++ ascii "/redirect.sh stop"].flatMap (· ++ ascii "\n") ++ ascii "exit\n" =
      [stopWords, [ascii "exit"]].flatMap line := by
    unfold stopWords mBasedir
    repeat rw [ascii_ofList]
    decide
  have literals : ∀ fields ∈ [stopWords, [ascii "exit"]], ∀ field ∈ fields,
      isLiteralWord field = true := by decide
  have words : ∀ fields ∈ [stopWords, [ascii "exit"]], fieldWords fields = fields.map literal :=
    fun fields member => fieldWords_literal (literals fields member)
  rw [text, readCommands_lines fun fields member field inside =>
    isField_of_literal (literals fields member field inside)]
  · simp only [List.mem_cons, List.not_mem_nil, or_false, forall_eq_or_imp, forall_eq] at words
    simp only [List.map_cons, List.map_nil, words]
  · intro fields member
    rw [words fields member]
    simp only [List.mem_cons, List.not_mem_nil, or_false] at member
    rcases member with rfl | rfl <;> simp [stopWords]

theorem stopRedirect_eq (outcome : Outcome) (phone : Phone) :
    stopRedirect outcome phone =
      { phone with chain := if outcome.iptables 0 then [] else phone.chain } := by
  have other : stopWords.head? ≠ some (mBasedir ++ ascii "/proxy.sh") := by
    unfold stopWords mBasedir
    repeat rw [ascii_ofList]
    decide
  have program : stopWords.head? = some (mBasedir ++ ascii "/redirect.sh") := rfl
  have start : parameter stopWords 1 ≠ ascii "start" := by decide
  have stop : parameter stopWords 1 = ascii "stop" := rfl
  have stopped (shell : RootShell) : runCommand outcome shell ⟨stopWords.map literal, 10⟩ =
      redirect outcome stopWords shell := by
    simp only [runCommand, arguments_literal]
    rw [if_neg other, if_pos program]
  rw [stopRedirect, execCommand, readCommands_stop]
  simp only [List.foldl_cons, List.foldl_nil, stopped, runCommand_exit, redirect, if_neg start,
    if_pos stop]
  split <;> rfl

end ProxySet.App
