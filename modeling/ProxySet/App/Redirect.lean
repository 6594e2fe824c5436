import ProxySet.App.StartRedsocks

/-!
The redirection that the app sets up: whether it depends on what was done before,
what a failed start leaves, and whether it sends redsocks to itself.
-/

namespace ProxySet.App

open Shell Droid FirstMatch

/-! ### Histories -/

inductive Step where
  | start (outcome : Outcome) (ip : Bytes) (port : Nat) (proxyType : Bytes)
  | stop (outcome : Outcome)

def Step.run (phone : Phone) : Step → Phone
  | .start outcome ip port proxyType => (startRedsocks outcome ip port proxyType phone).2
  | .stop outcome => stopRedirect outcome phone

def history (steps : List Step) : Phone :=
  steps.foldl Step.run .fresh

def knownPorts : List (Option Nat × Nat) :=
  [(some 80, 8123), (some 443, 8124), (some 5228, 8124), (none, 8123)]

/-- The rules that can have been left in the chain. -/
def Known (chain : List Rule) : Prop :=
  ∀ rule ∈ chain, ∃ ports ∈ knownPorts, rule = tcpRule ports

theorem known_redirectRules (type : Bytes) : Known (redirectRules type) := by
  intro rule member
  rw [redirectRules_eq] at member
  obtain ⟨ports, listed, rfl⟩ := List.mem_map.mp member
  refine ⟨ports, ?_, rfl⟩
  unfold redirectedPorts at listed
  split at listed
  · simp only [forwardedPorts, List.mem_cons, List.not_mem_nil, or_false] at listed
    rcases listed with rfl | rfl | rfl <;> simp [knownPorts]
  · split at listed
    · simp only [forwardedPorts, List.mem_cons, List.not_mem_nil, or_false] at listed
      subst listed
      simp [knownPorts]
    · simp at listed

theorem installed_subset (outcome : Outcome) (number : Nat) (rules : List Rule) :
    ∀ rule ∈ installed outcome number rules, rule ∈ rules := by
  induction rules generalizing number with
  | nil => simp [installed]
  | cons first rules ih =>
      intro rule member
      rcases List.mem_append.mp member with here | later
      · split at here
        · rw [List.mem_singleton.mp here]
          exact List.mem_cons_self
        · simp at here
      · exact List.mem_cons_of_mem _ (ih _ rule later)

theorem known_runCommand (outcome : Outcome) {shell : RootShell} (command : Command)
    (known : Known shell.phone.chain) :
    Known (runCommand outcome shell command).phone.chain := by
  unfold runCommand
  split
  · exact known
  · next arguments _ =>
      split
      · unfold proxySh
        split
        · exact known
        · split <;> exact known
      · split
        · unfold redirect
          split
          · intro rule member
            dsimp only at member
            rw [runRules_fst, List.mem_append] at member
            rcases member with old | new
            · exact known rule old
            · exact known_redirectRules _ rule (installed_subset outcome 0 _ rule new)
          · split
            · split
              · simp [Known]
              · exact known
            · exact known
        · exact known

theorem known_execCommand (outcome : Outcome) (commands : List Bytes) {phone : Phone}
    (known : Known phone.chain) : Known (execCommand outcome commands phone).phone.chain := by
  unfold execCommand
  split
  · exact known
  · next lines read =>
      clear read
      have run : ∀ shell : RootShell, Known shell.phone.chain →
          Known (lines.foldl (runCommand outcome) shell).phone.chain := by
        induction lines with
        | nil => exact fun shell known => known
        | cons command lines ih =>
            exact fun shell known => ih _ (known_runCommand outcome command known)
      exact run _ known

theorem known_step {phone : Phone} (known : Known phone.chain) (step : Step) :
    Known (step.run phone).chain := by
  cases step with
  | start outcome ip port proxyType =>
      cases rooted : outcome.rooted with
      | false =>
          rw [Step.run, startRedsocks_unrooted port outcome rooted]
          exact known
      | true =>
          rw [Step.run, startRedsocks, if_pos rooted]
          dsimp only
          exact known_execCommand outcome (command ip port proxyType) known
  | stop outcome =>
      rw [Step.run, stopRedirect_eq]
      dsimp only
      split
      · simp [Known]
      · exact known

theorem known_history (steps : List Step) : Known (history steps).chain := by
  have run : ∀ phone : Phone, Known phone.chain → Known (steps.foldl Step.run phone).chain := by
    induction steps with
    | nil => exact fun phone known => known
    | cons step steps ih => exact fun phone known => ih _ (known_step known step)
  exact run .fresh (by simp [Known, Phone.fresh])

/-! ### What is left and what it does -/

@[simp] theorem covers_tcpRule (ports : Option Nat × Nat) (packet : Packet) :
    (tcpRule ports).covers packet = ports.1.all (· == packet.port) := by
  simp [Rule.covers, tcpRule]

@[simp] theorem verdict_tcpRule (ports : Option Nat × Nat) :
    (tcpRule ports).target.verdict = .sentTo loopback.value ports.2 :=
  rfl

/-- What has been left in the chain agrees with the rules of the type: no rule for all ports in
front of those of `http`, no other local port than theirs in front of those of `socks`, and nothing
where the script has no rules. -/
def Harmless (proxyType : Bytes) (chain : List Rule) : Prop :=
  if proxyType = ascii "http" then ∀ rule ∈ chain, rule.dport.isSome = true
  else if proxyType = ascii "socks" then
    ∀ rule ∈ chain.takeWhile (·.dport.isSome), rule.target = .redirect 8123
  else chain = []

/-- The rules do what they would do on an empty chain. -/
def Undisturbed (rules chain : List Rule) : Prop :=
  ∀ packet, verdictOf (chain ++ rules) packet = verdictOf rules packet

theorem undisturbed_iff (rules chain : List Rule) : Undisturbed rules chain ↔
    ∀ packet, firstMatch Rule.covers (·.target.verdict) (verdictOf rules packet) chain packet =
      verdictOf rules packet := by
  refine forall_congr' fun packet => ?_
  rw [verdictOf, firstMatch_append]
  rfl

def packetTo (port : Nat) : Packet where
  uid := 0
  destination := loopback
  port := port

section

variable {chain : List Rule} (known : Known chain)

include known

theorem covered_differs {fallback : Droid.Verdict} {packet : Packet}
    (covered : ∃ rule ∈ chain, rule.covers packet = true) :
    firstMatch Rule.covers (·.target.verdict) fallback chain packet ≠ .unmodified := by
  obtain ⟨rule, listed, -, same⟩ := firstMatch_covered Rule.covers (·.target.verdict) fallback covered
  obtain ⟨ports, -, rfl⟩ := known rule listed
  rw [same, verdict_tcpRule]
  exact Droid.Verdict.noConfusion

theorem undisturbed_http : Undisturbed ((forwardedPorts .http).map tcpRule) chain ↔
    ∀ rule ∈ chain, rule.dport.isSome = true := by
  have unlisted : verdictOf ((forwardedPorts .http).map tcpRule) (packetTo 22) = .unmodified := rfl
  rw [undisturbed_iff]
  constructor
  · intro same rule listed
    by_contra every
    have covers : rule.covers (packetTo 22) = true := by
      obtain ⟨ports, -, rfl⟩ := known rule listed
      have none : ports.1 = none := by simpa [tcpRule] using every
      simp [none]
    have here := same (packetTo 22)
    rw [unlisted] at here
    exact covered_differs known ⟨rule, listed, covers⟩ here
  · intro ported packet
    refine firstMatch_of_agree _ _ fun rule listed covers => ?_
    have some := ported rule listed
    obtain ⟨ports, inKnown, rfl⟩ := known rule listed
    simp only [knownPorts, List.mem_cons, List.not_mem_nil, or_false] at inKnown
    rw [covers_tcpRule] at covers
    rcases inKnown with rfl | rfl | rfl | rfl
    · have port : 80 = packet.port := by simpa using covers
      simp [verdictOf, firstMatch, forwardedPorts, ← port]
    · have port : 443 = packet.port := by simpa using covers
      simp [verdictOf, firstMatch, forwardedPorts, ← port]
    · have port : 5228 = packet.port := by simpa using covers
      simp [verdictOf, firstMatch, forwardedPorts, ← port]
    · simp [tcpRule] at some

omit known in
theorem local_port {ports others : Option Nat × Nat} (first : ports ∈ knownPorts)
    (second : others ∈ knownPorts) (same : ports.1 = others.1) : ports = others := by
  have all : ∀ ports ∈ knownPorts, ∀ others ∈ knownPorts, ports.1 = others.1 → ports = others := by
    decide
  exact all ports first others second same

theorem undisturbed_socks : Undisturbed ((forwardedPorts .socks5).map tcpRule) chain ↔
    ∀ rule ∈ chain.takeWhile (·.dport.isSome), rule.target = .redirect 8123 := by
  have always (packet : Packet) : verdictOf ((forwardedPorts .socks5).map tcpRule) packet =
      .sentTo loopback.value 8123 := rfl
  -- from the first rule for all ports on, the chain does what the new rule does
  have behind (packet : Packet) : firstMatch Rule.covers (·.target.verdict)
      (.sentTo loopback.value 8123) (chain.dropWhile (·.dport.isSome)) packet =
        .sentTo loopback.value 8123 := by
    cases rest : chain.dropWhile (·.dport.isSome) with
    | nil => rfl
    | cons rule rest' =>
        have stops := List.head?_dropWhile_not (·.dport.isSome) chain
        rw [rest] at stops
        have listed : rule ∈ chain := (List.dropWhile_sublist _).subset (by rw [rest]; simp)
        obtain ⟨ports, inKnown, rfl⟩ := known rule listed
        have every : ports.1 = none := by simpa [tcpRule] using stops
        rw [local_port inKnown (by simp [knownPorts] : (none, 8123) ∈ knownPorts) every]
        rfl
  rw [undisturbed_iff]
  simp only [always]
  have split (packet : Packet) : firstMatch Rule.covers (·.target.verdict)
      (.sentTo loopback.value 8123) chain packet =
        firstMatch Rule.covers (·.target.verdict) (.sentTo loopback.value 8123)
          (chain.takeWhile (·.dport.isSome)) packet := by
    have parts := firstMatch_append Rule.covers (·.target.verdict) (.sentTo loopback.value 8123)
      (chain.takeWhile (·.dport.isSome)) (chain.dropWhile (·.dport.isSome)) packet
    rwa [List.takeWhile_append_dropWhile, behind] at parts
  simp only [split]
  constructor
  · intro same rule listed
    have inChain := (List.takeWhile_sublist _).subset listed
    have ported := List.mem_takeWhile_imp listed
    obtain ⟨ports, inKnown, rfl⟩ := known rule inChain
    obtain ⟨port, here⟩ := Option.isSome_iff_exists.mp ported
    have first : ports.1 = some port := here
    have covered : ∃ rule ∈ chain.takeWhile (·.dport.isSome), rule.covers (packetTo port) = true :=
      ⟨_, listed, by simp [first, packetTo]⟩
    obtain ⟨other, otherListed, covers, decided⟩ :=
      firstMatch_covered Rule.covers (·.target.verdict) (.sentTo loopback.value 8123) covered
    have otherPorted := List.mem_takeWhile_imp otherListed
    obtain ⟨others, alsoKnown, rfl⟩ := known other ((List.takeWhile_sublist _).subset otherListed)
    have second : others.1 = some port := by
      obtain ⟨otherPort, there⟩ := Option.isSome_iff_exists.mp otherPorted
      have value : others.1 = some otherPort := there
      rw [covers_tcpRule, value] at covers
      rw [value, Option.some.injEq]
      simpa [packetTo] using covers
    rw [same, verdict_tcpRule, ← local_port inKnown alsoKnown (first.trans second.symm)] at decided
    have target : ports.2 = 8123 := (Droid.Verdict.sentTo.inj decided).2.symm
    simp [tcpRule, target]
  · intro targets packet
    refine firstMatch_of_agree _ _ fun rule listed _ => ?_
    rw [targets rule listed]
    rfl

theorem undisturbed_nothing : Undisturbed [] chain ↔ chain = [] := by
  rw [undisturbed_iff]
  constructor
  · intro same
    cases chain with
    | nil => rfl
    | cons rule rest =>
        exfalso
        obtain ⟨ports, -, first⟩ := known rule (by simp)
        have covers : rule.covers (packetTo (ports.1.getD 0)) = true := by
          rw [first, covers_tcpRule]
          cases ports.1 <;> simp [packetTo]
        exact covered_differs known ⟨rule, by simp, covers⟩ (same _)
  · rintro rfl packet
    rfl

end

theorem installed_allSucceed (number : Nat) (rules : List Rule) :
    installed .allSucceed number rules = rules := by
  induction rules generalizing number with
  | nil => rfl
  | cons rule rules ih =>
      rw [installed, ih]
      rfl

theorem undisturbed_iff_harmless {chain : List Rule} (known : Known chain) (proxyType : Bytes) :
    Undisturbed (redirectRules proxyType) chain ↔ Harmless proxyType chain := by
  rw [redirectRules_eq]
  unfold redirectedPorts Harmless
  split
  · exact undisturbed_http known
  · split
    · exact undisturbed_socks known
    · exact undisturbed_nothing known

section

variable {ip proxyType : Bytes} (address : isLiteralWord ip = true)
  (word : isLiteralWord proxyType = true) (port : Nat)

include address word

theorem history_start (steps : List Step) :
    (history (steps ++ [.start .allSucceed ip port proxyType])).chain =
      (history steps).chain ++ redirectRules proxyType := by
  rw [history, List.foldl_append, List.foldl_cons, List.foldl_nil, Step.run,
    startRedsocks_rooted address word port .allSucceed rfl, installed_allSucceed]
  rfl

/-- After a start that succeeds the redirection is that of the start alone exactly when what has
been left in the chain since it was last flushed is harmless to the type. -/
theorem redirection_history_iff (steps : List Step) :
    (∀ packet, verdictOf (history (steps ++ [.start .allSucceed ip port proxyType])).chain packet =
        verdictOf (history [.start .allSucceed ip port proxyType]).chain packet) ↔
      Harmless proxyType (history steps).chain := by
  have alone := history_start address word port []
  rw [List.nil_append] at alone
  rw [history_start address word port, alone]
  exact undisturbed_iff_harmless (known_history steps) proxyType

end

theorem words_literal : isLiteralWord (ascii "10.0.0.1") = true ∧
    isLiteralWord (ascii "http") = true ∧ isLiteralWord (ascii "socks") = true := by
  decide

theorem chain_http : (history [.start .allSucceed (ascii "10.0.0.1") 3128 (ascii "http")]).chain =
    (forwardedPorts .http).map tcpRule := by
  have alone := history_start words_literal.1 words_literal.2.1 3128 []
  rw [redirectRules_eq] at alone
  exact alone

theorem redirection_history_iff_http :
    isLiteralWord (ascii "10.0.0.1") = true ∧ isLiteralWord (ascii "http") = true ∧
      ∀ packet, verdictOf (history ([.start .allSucceed (ascii "10.0.0.1") 3128 (ascii "http")] ++
          [.start .allSucceed (ascii "10.0.0.1") 8080 (ascii "http")])).chain packet =
        verdictOf (history [.start .allSucceed (ascii "10.0.0.1") 8080 (ascii "http")]).chain
          packet := by
  refine ⟨words_literal.1, words_literal.2.1, ?_⟩
  refine (redirection_history_iff words_literal.1 words_literal.2.1 8080 _).mpr ?_
  rw [Harmless, if_pos rfl, chain_http]
  decide

/-- A start as `http` and then one as `socks`: the rules of the first still decide on HTTPS. -/
theorem redirection_keeps_http :
    verdictOf (history ([.start .allSucceed (ascii "10.0.0.1") 3128 (ascii "http")] ++
        [.start .allSucceed (ascii "10.0.0.1") 1080 (ascii "socks")])).chain (packetTo 443) ≠
      verdictOf (history [.start .allSucceed (ascii "10.0.0.1") 1080 (ascii "socks")]).chain
        (packetTo 443) := by
  have alone := history_start words_literal.1 words_literal.2.2 1080 []
  have other : ascii "socks" ≠ ascii "http" := by decide
  have rules : redirectRules (ascii "socks") = (forwardedPorts .socks5).map tcpRule := by
    rw [redirectRules_eq, redirectedPorts, if_neg other, if_pos rfl]
  rw [List.nil_append] at alone
  rw [history_start words_literal.1 words_literal.2.2, chain_http, alone, rules]
  decide

/-! ### Failed starts -/

theorem installed_length (outcome : Outcome) (number : Nat) (rules : List Rule) :
    (installed outcome number rules).length ≤ rules.length := by
  induction rules generalizing number with
  | nil => simp [installed]
  | cons rule rules ih =>
      have later := ih (number + 1)
      rw [installed, List.length_append, List.length_cons]
      split <;> simp <;> omega

theorem forall_lt_succ (outcome : Nat → Prop) (number count : Nat) :
    (∀ place < count + 1, outcome (number + place)) ↔
      outcome number ∧ ∀ place < count, outcome (number + 1 + place) := by
  constructor
  · intro all
    refine ⟨all 0 (by omega), fun place below => ?_⟩
    have next := all (place + 1) (by omega)
    rwa [show number + (place + 1) = number + 1 + place by omega] at next
  · rintro ⟨first, others⟩ place below
    cases place with
    | zero => exact first
    | succ place =>
        rw [show number + (place + 1) = number + 1 + place by omega]
        exact others place (by omega)

theorem installed_eq_all (outcome : Outcome) (number : Nat) (rules : List Rule) :
    installed outcome number rules = rules ↔
      ∀ place < rules.length, outcome.iptables (number + place) = true := by
  induction rules generalizing number with
  | nil => simp [installed]
  | cons rule rules ih =>
      rw [List.length_cons, forall_lt_succ fun place => outcome.iptables place = true, ← ih, installed]
      cases outcome.iptables number with
      | true => simp
      | false =>
          have bound := installed_length outcome (number + 1) rules
          simp only [Bool.false_eq_true, if_false, List.nil_append, false_and, iff_false]
          intro same
          rw [same, List.length_cons] at bound
          omega

theorem installed_eq_nil (outcome : Outcome) (number : Nat) (rules : List Rule) :
    installed outcome number rules = [] ↔
      ∀ place < rules.length, outcome.iptables (number + place) = false := by
  induction rules generalizing number with
  | nil => simp [installed]
  | cons rule rules ih =>
      rw [List.length_cons, forall_lt_succ fun place => outcome.iptables place = false, ← ih, installed]
      cases outcome.iptables number <;> simp

/-- A call returns true just when it has started redsocks and installed all rules of the type, and
leaves no rule of its own when it returns false or has not started redsocks. -/
def FailsSafe (outcome : Outcome) (ip : Bytes) (port : Nat) (proxyType : Bytes) (phone : Phone) :
    Prop :=
  let result := startRedsocks outcome ip port proxyType { phone with started := false }
  (result.1 = true ↔
      result.2.started = true ∧ result.2.chain = phone.chain ++ redirectRules proxyType) ∧
    (result.1 = false ∨ result.2.started = false → result.2.chain = phone.chain)

/-- The start succeeds in all its parts, or none of the rules it has is installed. -/
def AllOrNothing (outcome : Outcome) (proxyType : Bytes) : Prop :=
  outcome.rooted = true ∧
    ((outcome.redsocks = true ∧
        ∀ place < (redirectRules proxyType).length, outcome.iptables place = true) ∨
      (redirectRules proxyType ≠ [] ∧
        ∀ place < (redirectRules proxyType).length, outcome.iptables place = false))

section

variable {ip proxyType : Bytes} (address : isLiteralWord ip = true)
  (word : isLiteralWord proxyType = true) (port : Nat)

include address word

omit address word in
theorem lastSucceeds_of_all {outcome : Outcome} {rules : List Rule}
    (all : installed outcome 0 rules = rules) : lastSucceeds outcome rules = true := by
  rw [installed_eq_all] at all
  cases rules with
  | nil => rfl
  | cons rule rules =>
      have last := all rules.length (by simp)
      simpa [lastSucceeds] using last

omit address word in
theorem lastSucceeds_of_nothing {outcome : Outcome} {rules : List Rule} (some : rules ≠ [])
    (nothing : installed outcome 0 rules = []) : lastSucceeds outcome rules = false := by
  rw [installed_eq_nil] at nothing
  cases rules with
  | nil => exact absurd rfl some
  | cons rule rules =>
      have last := nothing rules.length (by simp)
      simpa [lastSucceeds] using last

theorem startRedsocks_failsSafe_iff (outcome : Outcome) (phone : Phone) :
    FailsSafe outcome ip port proxyType phone ↔ AllOrNothing outcome proxyType := by
  unfold FailsSafe AllOrNothing
  cases rooted : outcome.rooted with
  | false => simp [startRedsocks_unrooted port outcome rooted]
  | true =>
      have all := installed_eq_all outcome 0 (redirectRules proxyType)
      have nothing := installed_eq_nil outcome 0 (redirectRules proxyType)
      simp only [zero_add] at all nothing
      rw [startRedsocks_rooted address word port outcome rooted]
      simp only [List.append_cancel_left_eq, List.append_right_eq_self, ← all, ← nothing, true_and]
      generalize redirectRules proxyType = rules
      constructor
      · rintro ⟨returned, left⟩
        cases last : lastSucceeds outcome rules with
        | true => exact .inl (returned.mp last)
        | false =>
            refine .inr ⟨?_, left (.inl last)⟩
            rintro rfl
            simp [lastSucceeds] at last
      · rintro (⟨started, whole⟩ | ⟨some, empty⟩)
        · have last := lastSucceeds_of_all whole
          simp [started, whole, last]
        · have last := lastSucceeds_of_nothing some empty
          simp [last, empty, Ne.symm some]

end

theorem startRedsocks_failsSafe_iff_works :
    FailsSafe .allSucceed (ascii "10.0.0.1") 3128 (ascii "http") .fresh := by
  refine (startRedsocks_failsSafe_iff words_literal.1 words_literal.2.1 3128 _ _).mpr ?_
  exact ⟨rfl, .inl ⟨rfl, fun _ _ => rfl⟩⟩

/-- The proxy does not start, and the phone is told to send everything to it. -/
theorem startRedsocks_without_proxy :
    ¬FailsSafe { Outcome.allSucceed with redsocks := false } (ascii "10.0.0.1") 1080 (ascii "socks")
      .fresh := by
  rw [FailsSafe, startRedsocks_rooted words_literal.1 words_literal.2.2 1080 _ rfl]
  simp only [redirectRules_eq]
  decide

/-! ### Loops -/

def addressOf (value : Nat) : Ipv4 where
  a := (value / 2 ^ 24).toUInt8
  b := (value / 2 ^ 16).toUInt8
  c := (value / 2 ^ 8).toUInt8
  d := value.toUInt8

/-- Where the connection ends that `redsocks_connect_relay`, run by root, opens. -/
def arrives (chain : List Rule) (config : RedsocksConfig) : Nat × Nat :=
  let packet : Packet :=
    { uid := 0, destination := addressOf config.relayAddr, port := config.relayPort }
  match verdictOf chain packet with
  | .unmodified => (config.relayAddr, config.relayPort)
  | .sentTo address port => (address, port)

def listeners (platform : Platform) (phone : Phone) : List RedsocksConfig :=
  (configured platform phone.conf).getD []

/-- No connection that redsocks opens is one that it accepts. -/
def NeverCaptured (platform : Platform) (phone : Phone) : Prop :=
  ∀ config ∈ listeners platform phone, ∀ other ∈ listeners platform phone,
    arrives phone.chain config ≠ (other.bindAddr, other.bindPort)

/-- The upstream proxy is known to redsocks, and its port is redirected or one of redsocks' own. -/
def Captures (platform : Platform) (ip : Bytes) (port : Nat) (proxyType : Bytes) : Prop :=
  ∃ address, vpInAddr platform ip = .ok (.inAddr address) ∧ port < 2 ^ 16 ∧
    (proxyType = ascii "socks" ∨
      (proxyType = ascii "http" ∧
        (port ∈ [80, 443, 5228] ∨ (address = inaddrLoopback ∧ port ∈ [8123, 8124]))))

section

variable {platform : Platform} (wide : 32 ≤ platform.longBits) {ip : Bytes}
  (plain : isPlainText ip = true) {port : Nat}

include plain in
theorem startArgs_worded (port : Nat) (proxyType : Bytes) :
    Worded (startArgs ip port proxyType).values where
  host := plain
  port := isPlainText_decimal port

theorem vpInAddr_cases (platform : Platform) (token : Bytes) :
    (∃ address, vpInAddr platform token = .ok (.inAddr address)) ∨
      ∃ messages, vpInAddr platform token = .error messages := by
  unfold vpInAddr
  split
  · exact .inl ⟨_, rfl⟩
  · split
    · exact .inl ⟨_, rfl⟩
    · exact .inr ⟨_, rfl⟩

theorem appRelays_known {proxyType : Bytes} (known : proxyType ∈ [ascii "http", ascii "socks"]) :
    ∀ relay ∈ appRelays proxyType, relay.1 < 2 ^ 16 ∧ relay.2 ∈ relaySubsystems := by
  simp only [List.mem_cons, List.not_mem_nil, or_false] at known
  rcases known with rfl | rfl <;> decide

theorem appRelays_first {proxyType : Bytes} (known : proxyType ∈ [ascii "http", ascii "socks"]) :
    ∃ relay, relay ∈ appRelays proxyType := by
  simp only [List.mem_cons, List.not_mem_nil, or_false] at known
  rcases known with rfl | rfl
  · exact ⟨(8123, ascii "http-relay"), by decide⟩
  · exact ⟨(8123, ascii "socks5"), by decide⟩

include wide plain

theorem configured_upstream {proxyType : Bytes}
    (known : proxyType ∈ [ascii "http", ascii "socks"]) {address : Nat}
    (resolved : vpInAddr platform ip = .ok (.inAddr address)) (bounded : port < 2 ^ 16) :
    configured platform (appProxySh (startArgs ip port proxyType)) =
      some ((appRelays proxyType).map (relayConfig address port none none)).reverse := by
  have narrow : 16 ≤ platform.longBits := by omega
  have set : Upstreams platform (startArgs ip port proxyType).values address port :=
    ⟨resolved, vpUint16_decimal platform narrow bounded⟩
  obtain ⟨margins, text⟩ := appText_source known
  have same : appText (startArgs ip port proxyType).type (startArgs ip port proxyType).auth =
      some (relayConf (appRelays proxyType) (credentials false) margins).source := text
  rw [appProxySh, same, configured_relays narrow (startArgs ip port proxyType)
    (startArgs_worded plain port proxyType) set (appRelays_known known) (by simp) margins]
  rfl

theorem configured_unknown {proxyType : Bytes}
    (known : proxyType ∈ [ascii "http", ascii "socks"])
    (unknown : (∃ messages, vpInAddr platform ip = .error messages) ∨ 2 ^ 16 ≤ port) :
    configured platform (appProxySh (startArgs ip port proxyType)) = none := by
  obtain ⟨margins, text⟩ := appText_source known
  have same : appText (startArgs ip port proxyType).type (startArgs ip port proxyType).auth =
      some (relayConf (appRelays proxyType) [] margins).source := text
  obtain ⟨relay, listed⟩ := appRelays_first known
  have types : ∀ relay ∈ appRelays proxyType, relay.2 ∈ relaySubsystems :=
    fun relay member => (appRelays_known known relay member).2
  have quoting : Quoting (startArgs ip port proxyType).values [] := by simp [Quoting]
  have worded := startArgs_worded plain port proxyType
  rw [appProxySh, same]
  rcases unknown with ⟨messages, unresolved⟩ | large
  · have stuck (effect : ProxySet.Effect ConfigMemory) : runAssign platform redsocksSection effect
        (ascii "ip", (startArgs ip port proxyType).values (ascii "host")) = none := by
      have value : (startArgs ip port proxyType).values (ascii "host") = ip := rfl
      have found : redsocksSection.entries.find? (·.key == ascii "ip") = some (inAddrEntry
        (ascii "ip") fun address => ConfigMemory.setRedsocks ({ · with relayAddr := address })) := rfl
      simp only [runAssign, found, value, inAddrEntry, valueParserByType, unresolved]
    have member : (ascii "ip", ConfValue.param (ascii "host")) ∈
        relayAssigns relay.1 relay.2 ++ [] := by simp [relayAssigns]
    exact configured_stuck _ worded types rfl quoting margins listed member stuck
  · obtain ⟨messages, refused⟩ := vpUint16_large platform wide large
    have stuck (effect : ProxySet.Effect ConfigMemory) : runAssign platform redsocksSection effect
        (ascii "port", (startArgs ip port proxyType).values (ascii "port")) = none := by
      have value : (startArgs ip port proxyType).values (ascii "port") = decimal port := rfl
      have found : redsocksSection.entries.find? (·.key == ascii "port") = some (uint16Entry
        (ascii "port") fun number => ConfigMemory.setRedsocks ({ · with relayPort := number })) := rfl
      simp only [runAssign, found, value, uint16Entry, valueParserByType, refused]
    have member : (ascii "port", ConfValue.param (ascii "port")) ∈
        relayAssigns relay.1 relay.2 ++ [] := by simp [relayAssigns]
    exact configured_stuck _ worded types rfl quoting margins listed member stuck

omit wide plain

theorem arrives_socks {config : RedsocksConfig} :
    arrives (redirectRules (ascii "socks")) config = (inaddrLoopback, 8123) := by
  have other : ascii "socks" ≠ ascii "http" := by decide
  rw [redirectRules_eq, redirectedPorts, if_neg other, if_pos rfl]
  rfl

theorem arrives_http {config : RedsocksConfig} :
    arrives (redirectRules (ascii "http")) config =
      if config.relayPort = 80 then (inaddrLoopback, 8123)
      else if config.relayPort = 443 ∨ config.relayPort = 5228 then (inaddrLoopback, 8124)
      else (config.relayAddr, config.relayPort) := by
  rw [redirectRules_eq, redirectedPorts, if_pos rfl]
  have loop : loopback.value = inaddrLoopback := rfl
  simp only [arrives, verdictOf, forwardedPorts, List.map_cons, List.map_nil, firstMatch,
    covers_tcpRule, verdict_tcpRule, Option.all_some, beq_iff_eq, loop]
  by_cases first : 80 = config.relayPort
  · simp [first.symm]
  · by_cases second : 443 = config.relayPort
    · simp [second.symm]
    · by_cases third : 5228 = config.relayPort
      · simp [third.symm]
      · simp [first, second, third, Ne.symm first, Ne.symm second, Ne.symm third]

theorem captured_http {address port : Nat} :
    (∀ config ∈ httpRelays.map (relayConfig address port none none),
      ∀ other ∈ httpRelays.map (relayConfig address port none none),
        arrives (redirectRules (ascii "http")) config ≠ (other.bindAddr, other.bindPort)) ↔
      ¬(port ∈ [80, 443, 5228] ∨ (address = inaddrLoopback ∧ port ∈ [8123, 8124])) := by
  simp only [httpRelays, List.map_cons, List.map_nil, List.mem_cons, List.not_mem_nil, or_false,
    forall_eq_or_imp, forall_eq, arrives_http, relayConfig, RedsocksConfig.fresh]
  by_cases first : port = 80
  · simp [first]
  · by_cases second : port = 443 ∨ port = 5228
    · simp [first, second]
    · simp only [if_neg first, if_neg second, ne_eq, Prod.mk.injEq]
      tauto

end

/-- The connection that redsocks opens never comes back to it exactly when the start does not make
the phone capture it. -/
theorem startRedsocks_neverCaptured_iff (platform : Platform) (wide : 32 ≤ platform.longBits)
    (ip : Bytes) (plain : isPlainText ip = true) (port : Nat) (proxyType : Bytes)
    (word : isLiteralWord proxyType = true) :
    NeverCaptured platform (startRedsocks .allSucceed ip port proxyType .fresh).2 ↔
      ¬Captures platform ip port proxyType := by
  rw [startRedsocks_rooted (isLiteralWord_plain plain) word port .allSucceed rfl,
    installed_allSucceed]
  unfold NeverCaptured listeners Captures
  dsimp only [Phone.fresh]
  rw [List.nil_append]
  by_cases known : proxyType ∈ [ascii "http", ascii "socks"]
  · rcases vpInAddr_cases platform ip with ⟨address, resolved⟩ | unresolved
    · by_cases bounded : port < 2 ^ 16
      · rw [configured_upstream wide plain known resolved bounded, Option.getD_some]
        have found : (∃ other, vpInAddr platform ip = .ok (.inAddr other) ∧ port < 2 ^ 16 ∧
            (proxyType = ascii "socks" ∨ (proxyType = ascii "http" ∧
              (port ∈ [80, 443, 5228] ∨ (other = inaddrLoopback ∧ port ∈ [8123, 8124]))))) ↔
            (proxyType = ascii "socks" ∨ (proxyType = ascii "http" ∧
              (port ∈ [80, 443, 5228] ∨ (address = inaddrLoopback ∧ port ∈ [8123, 8124])))) := by
          rw [resolved]
          constructor
          · rintro ⟨other, same, -, rest⟩
            cases same
            exact rest
          · exact fun rest => ⟨address, rfl, bounded, rest⟩
        have other : ascii "http" ≠ ascii "socks" := by decide
        rw [found]
        simp only [List.mem_reverse]
        simp only [List.mem_cons, List.not_mem_nil, or_false] at known
        rcases known with rfl | rfl
        · rw [appRelays, if_pos rfl, captured_http]
          simp only [other, false_or, true_and]
        · simp [appRelays, other.symm, arrives_socks, relayConfig, RedsocksConfig.fresh]
      · rw [configured_unknown wide plain known (.inr (by omega))]
        refine iff_of_true (by simp) ?_
        rintro ⟨-, -, small, -⟩
        exact bounded small
    · rw [configured_unknown wide plain known (.inl unresolved)]
      obtain ⟨messages, refused⟩ := unresolved
      simp [refused]
  · have text : appText proxyType (ascii "false") = none := by
      simp only [List.mem_cons, List.not_mem_nil, or_false, not_or] at known
      rw [appText, if_neg known.1, if_neg known.2]
    have nothing : appProxySh (startArgs ip port proxyType) =
        writeConf (startArgs ip port proxyType) baseText none := by
      have same : appText (startArgs ip port proxyType).type (startArgs ip port proxyType).auth =
          none := text
      rw [appProxySh, same]
    rw [nothing, configured_base]
    refine iff_of_true (by simp) ?_
    rintro ⟨-, -, -, socks | ⟨http, -⟩⟩
    · exact known (by simp [socks])
    · exact known (by simp [http])

/-- The call of the main screen. -/
theorem startRedsocks_neverCaptured_iff_screen :
    NeverCaptured samplePlatform
      (startRedsocks .allSucceed (ascii "192.168.1.9") 3128 (ascii "http") .fresh).2 := by
  refine (startRedsocks_neverCaptured_iff samplePlatform (by decide) _ (by decide) 3128 _
    words_literal.2.1).mpr ?_
  rintro ⟨address, -, -, socks | ⟨-, ports | ⟨-, own⟩⟩⟩
  · exact absurd socks (by decide)
  · simp at ports
  · simp at own

/-- Any upstream proxy of the type `socks`: what redsocks sends to it comes back to redsocks. -/
theorem startRedsocks_captures_socks :
    ¬NeverCaptured samplePlatform
      (startRedsocks .allSucceed (ascii "192.168.1.9") 1080 (ascii "socks") .fresh).2 := by
  have plain : isPlainText (ascii "192.168.1.9") = true := by decide
  have text : ascii "192.168.1.9" = Ipv4.text ⟨192, 168, 1, 9⟩ := by decide
  have resolved := vpInAddr_text samplePlatform ⟨192, 168, 1, 9⟩
  rw [← text] at resolved
  have other : ascii "socks" ≠ ascii "http" := by decide
  have bounded : 1080 < 2 ^ 16 := by decide
  have wide : 32 ≤ samplePlatform.longBits := by decide
  have one := configured_upstream wide plain (by simp : ascii "socks" ∈ _) resolved bounded
  rw [appRelays, if_neg other] at one
  intro never
  rw [startRedsocks_rooted (isLiteralWord_plain plain) words_literal.2.2 1080 .allSucceed rfl,
    installed_allSucceed] at never
  unfold NeverCaptured listeners at never
  dsimp only [Phone.fresh] at never
  rw [one, Option.getD_some, List.nil_append] at never
  simp only [List.map_cons, List.map_nil, List.reverse_singleton, List.mem_singleton, forall_eq,
    arrives_socks] at never
  exact never rfl

end ProxySet.App
