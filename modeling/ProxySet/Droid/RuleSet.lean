import ProxySet.Droid.RuleLines

/-!
What the chain of `enableProxy` does to every packet, against what the settings say.
-/

namespace ProxySet.Droid

open FirstMatch SortedSearch

/-! ### The settings -/

theorem comparesLe_linear : LinearComparison comparesLe where
  trans := by
    intro first second third below above
    simp only [comparesLe, decide_eq_true_eq] at below above ⊢
    exact le_trans below above
  total := by
    intro first second
    simp only [comparesLe, Bool.or_eq_true, decide_eq_true_eq]
    exact le_total _ _
  antisymm := by
    intro first second below above
    simp only [comparesLe, decide_eq_true_eq] at below above
    have same := le_antisymm below above
    exact List.map_injective_iff.mpr (fun _ _ => UInt8.toNat_inj.mp) same

theorem isSelected_iff (tordAppString username : Bytes) :
    isSelected tordAppString username = true ↔ username ∈ barTokens tordAppString :=
  search_mergeSort comparesLe_linear _ _

/-- ProxyDroid itself is installed as an ordinary app, and no other app has its uid. -/
structure OwnPackage (packages : PackageManager) (own : Nat) : Prop where
  installed : ∃ aInfo ∈ packages.installed, aInfo.uid = own
  ordinary : 10000 ≤ own
  alone : ∀ aInfo ∈ packages.installed,
    aInfo.packageName = some (ascii "org.proxydroid") ↔ aInfo.uid = own

def selected (device : Device) (uid : Nat) : Bool :=
  decide (10000 ≤ uid) && device.packages.installed.any (·.uid == uid) &&
    decide (device.packages.nameForUid uid ∈ barTokens device.tordAppString)

theorem mem_getProxyedApps {device : Device} {own : Nat} (package : OwnPackage device.packages own)
    (self : Bool) (uid : Nat) :
    uid ∈ getProxyedApps device.packages device.tordAppString self ↔
      if uid = own then self = true else selected device uid = true := by
  simp only [getProxyedApps, List.mem_map, List.mem_filter, Bool.and_eq_true, decide_eq_true_eq,
    selected, List.any_eq_true, beq_iff_eq]
  by_cases same : uid = own
  · rw [if_pos same]
    constructor
    · rintro ⟨aInfo, ⟨listed, -, proxyed⟩, here⟩
      have name := (package.alone aInfo listed).mpr (here.trans same)
      simpa [isProxyed, name] using proxyed
    · rintro rfl
      obtain ⟨aInfo, listed, here⟩ := package.installed
      have name := (package.alone aInfo listed).mpr here
      refine ⟨aInfo, ⟨listed, ?_, by simp [isProxyed, name]⟩, here.trans same.symm⟩
      rw [here]
      exact package.ordinary
  · rw [if_neg same]
    have foreign {aInfo : ApplicationInfo} (listed : aInfo ∈ device.packages.installed)
        (here : aInfo.uid = uid) : isProxyed device.packages device.tordAppString self aInfo = true ↔
          device.packages.nameForUid uid ∈ barTokens device.tordAppString := by
      have name : aInfo.packageName ≠ some (ascii "org.proxydroid") := by
        intro own
        exact same (here.symm.trans ((package.alone aInfo listed).mp own))
      rw [isProxyed, if_neg name, isSelected_iff, here]
    constructor
    · rintro ⟨aInfo, ⟨listed, large, proxyed⟩, here⟩
      rw [here] at large
      exact ⟨⟨large, aInfo, listed, here⟩, (foreign listed here).mp proxyed⟩
    · rintro ⟨⟨large, aInfo, listed, here⟩, chosen⟩
      rw [← here] at large
      exact ⟨aInfo, ⟨listed, large, (foreign listed here).mpr chosen⟩, here⟩

/-! ### The addresses -/

theorem isAddr_of_splitOn {mark : UInt8} {text : Bytes} {parts : List Bytes}
    (split : text.splitOn mark = parts) (point : isAddrByte mark = true)
    (known : ∀ part ∈ parts, isAddr part = true) : isAddr text = true := by
  have joined : [mark].intercalate parts = text := by rw [← split, List.intercalate_splitOn]
  have nonempty : parts ≠ [] := by
    rw [← split]
    exact List.splitOn_ne_nil mark text
  have all : parts ≠ [] → (∀ part ∈ parts, isAddr part = true) →
      isAddr ([mark].intercalate parts) = true := by
    clear split known joined nonempty
    intro nonempty known
    induction parts with
    | nil => exact absurd rfl nonempty
    | cons part parts ih =>
        simp only [List.mem_cons, forall_eq_or_imp] at known
        cases parts with
        | nil => simpa using known.1
        | cons next parts =>
            have later := ih (by simp) known.2
            have apart : [mark].intercalate (part :: next :: parts) =
                part ++ mark :: [mark].intercalate (next :: parts) := by
              simp [List.intercalate]
            simp only [isAddr, Bool.and_eq_true, List.all_eq_true] at known later ⊢
            rw [apart]
            refine ⟨by simp, ?_⟩
            intro byte member
            rw [List.mem_append, List.mem_cons] at member
            rcases member with member | rfl | member
            · exact known.1.2 byte member
            · exact point
            · exact later.2 byte member
  rw [← joined]
  exact all nonempty known

theorem isAddr_of_isDigits {most : Nat} {text : Bytes} (digits : isDigits most text = true) :
    isAddr text = true := by
  simp only [isDigits, Bool.and_eq_true, decide_eq_true_eq, List.all_eq_true] at digits
  simp only [isAddr, Bool.and_eq_true, Bool.not_eq_true', List.isEmpty_eq_false_iff,
    List.all_eq_true]
  refine ⟨?_, fun byte member => RuleLine.digit_isAddrByte (digits.2 byte member)⟩
  rintro rfl
  simp at digits

theorem isAddr_of_isDottedQuad {text : Bytes} (quad : isDottedQuad text = true) :
    isAddr text = true := by
  unfold isDottedQuad at quad
  split at quad
  · rename_i a b c d split
    simp only [Bool.and_eq_true] at quad
    refine isAddr_of_splitOn split rfl ?_
    simp only [List.mem_cons, List.not_mem_nil, or_false, forall_eq_or_imp, forall_eq]
    exact ⟨isAddr_of_isDigits quad.1.1.1, isAddr_of_isDigits quad.1.1.2,
      isAddr_of_isDigits quad.1.2, isAddr_of_isDigits quad.2⟩
  · simp at quad

theorem isAddr_of_isDottedRange {text : Bytes} (range : isDottedRange text = true) :
    isAddr text = true := by
  unfold isDottedRange at range
  split at range
  · rename_i quad bits split
    simp only [Bool.and_eq_true] at range
    refine isAddr_of_splitOn split rfl ?_
    simp only [List.mem_cons, List.not_mem_nil, or_false, forall_eq_or_imp, forall_eq]
    exact ⟨isAddr_of_isDottedQuad range.1, isAddr_of_isDigits range.2⟩
  · simp at range

theorem isAddr_of_validateAddr {getHostAddress : Bytes → Option Bytes} {ia addr : Bytes}
    (valid : validateAddr getHostAddress ia = some addr) : isAddr addr = true := by
  unfold validateAddr at valid
  split at valid
  · rename_i dotted
    obtain rfl : ia = addr := Option.some.inj valid
    rw [Bool.or_eq_true] at dotted
    rcases dotted with range | quad
    · exact isAddr_of_isDottedRange range
    · exact isAddr_of_isDottedQuad quad
  · rw [Option.filter_eq_some_iff] at valid
    exact isAddr_of_isDottedQuad valid.2

theorem isAddr_of_bypassed {device : Device} {bypassAddrs : Option Bytes} {addr : Bytes}
    (member : addr ∈ bypassed device bypassAddrs) : isAddr addr = true := by
  unfold bypassed at member
  split at member
  · simp at member
  · split at member
    · simp at member
    · obtain ⟨ia, -, valid⟩ := List.mem_filterMap.mp member
      exact isAddr_of_validateAddr valid

theorem isAddr_text (address : Ipv4) : isAddr address.text = true := by
  simp only [isAddr, Bool.and_eq_true, Bool.not_eq_true', List.isEmpty_eq_false_iff,
    List.all_eq_true]
  refine ⟨address.text_ne_nil, fun byte member => ?_⟩
  have known := address.text_bytes byte member
  simp only [Bool.or_eq_true] at known
  simp only [isAddrByte, Bool.or_eq_true]
  exact .inl known

theorem readRange_text (address : Ipv4) :
    readRange address.text = some ⟨address.value, 32, le_rfl⟩ := by
  have noSlash : (47 : UInt8) ∉ address.text := by
    intro member
    have known := address.text_bytes 47 member
    revert known
    decide
  have alone : ([(47 : UInt8)].intercalate [address.text]).splitOn 47 = [address.text] :=
    List.splitOn_intercalate 47 (by simpa using noSlash) (by simp)
  have joined : [(47 : UInt8)].intercalate [address.text] = address.text := by simp
  rw [joined] at alone
  simp [readRange, alone, address.inetAton_text]

/-! ### The verdict -/

def forwardVerdict (proxyType : ProxyType) (port : Nat) : Verdict :=
  match proxyType with
  | .socks4 => .sentTo loopback.value 8123
  | .socks5 => .sentTo loopback.value 8123
  | .httpTunnel =>
      if port = 80 ∨ port = 443 ∨ port = 5228 then .sentTo loopback.value 8123 else .unmodified
  | _ =>
      if port = 80 then .sentTo loopback.value 8123
      else if port = 443 ∨ port = 5228 then .sentTo loopback.value 8124
      else .unmodified

def inBypassRange (device : Device) (bundle : Bundle) (destination : Ipv4) : Bool :=
  (bypassed device bundle.bypassAddrs).any fun addr =>
    (readRange addr).any (·.contains destination.value)

/-- What the settings say about a packet. -/
def settingsVerdict (device : Device) (bundle : Bundle) (host : Ipv4) (own : Nat)
    (packet : Packet) : Verdict :=
  if packet.destination = host ∨ inBypassRange device bundle packet.destination = true then
    .unmodified
  else if bundle.isBypassApps = true ∧ packet.uid ≠ own ∧ selected device packet.uid = true then
    .unmodified
  else if bundle.isAutoSetProxy = true ∨ bundle.isBypassApps = true ∨ packet.uid = own ∨
      selected device packet.uid = true then
    forwardVerdict bundle.proxyType packet.port
  else .unmodified

def RuleLine.toRule (rule : RuleLine) : Rule :=
  rule.withRange (rule.destination.bind readRange)

theorem mapM_rule? {lines : List RuleLine}
    (read : ∀ rule ∈ lines, ∀ addr ∈ rule.destination, (readRange addr).isSome = true) :
    lines.mapM RuleLine.rule? = some (lines.map RuleLine.toRule) := by
  induction lines with
  | nil => rfl
  | cons rule lines ih =>
      simp only [List.mem_cons, forall_eq_or_imp] at read
      have first : rule.rule? = some rule.toRule := by
        cases here : rule.destination with
        | none => simp [RuleLine.rule?, RuleLine.toRule, here]
        | some addr =>
            obtain ⟨range, found⟩ := Option.isSome_iff_exists.mp (read.1 addr here)
            simp [RuleLine.rule?, RuleLine.toRule, here, found]
      rw [List.mapM_cons, first, ih read.2]
      rfl

theorem iptables_path (iptables : Iptables) : Shell.isLiteralWord iptables.path = true := by
  cases iptables <;> decide +kernel

section

variable {device : Device} {bundle : Bundle} {host : Ipv4}

theorem ruleLines_destination {proxyType : ProxyType} (hostText : bundle.host = host.text)
    {rule : RuleLine} (listed : rule ∈ ruleLines device (onStart bundle) proxyType) {addr : Bytes}
    (here : addr ∈ rule.destination) :
    addr = host.text ∨ addr ∈ bypassed device bundle.bypassAddrs := by
  have forwards {rule : RuleLine} (member : rule ∈ forwardLines device.hasRedirectSupport proxyType) :
      rule.destination = none := by
    obtain ⟨entry, -, rfl⟩ := List.mem_map.mp member
    rfl
  simp only [ruleLines, List.mem_append] at listed
  rcases listed with (((listed | listed) | listed) | listed) | listed
  · split at listed
    · rw [List.mem_singleton] at listed
      subst listed
      exact absurd here (by simp [dnsLine])
    · simp at listed
  · rw [List.mem_singleton] at listed
    subst listed
    have same : bundle.host = addr := by simpa [RuleLine.returnTo, onStart] using here
    exact .inl (same.symm.trans hostText)
  · obtain ⟨other, member, rfl⟩ := List.mem_map.mp listed
    have same : other = addr := by simpa [RuleLine.returnTo] using here
    rw [← same]
    exact .inr member
  · split at listed
    · obtain ⟨uid, -, rfl⟩ := List.mem_map.mp listed
      exact absurd here (by simp [RuleLine.restrict, RuleLine.returnAll])
    · simp at listed
  · split at listed
    · rw [forwards listed] at here
      simp at here
    · obtain ⟨uid, -, member⟩ := List.mem_flatMap.mp listed
      obtain ⟨forward, inside, rfl⟩ := List.mem_map.mp member
      have unset : forward.destination = none := forwards inside
      rw [RuleLine.restrict, unset] at here
      simp at here

theorem ruleLines_readable {proxyType : ProxyType} (hostText : bundle.host = host.text)
    {rule : RuleLine} (listed : rule ∈ ruleLines device (onStart bundle) proxyType) :
    rule.Readable := by
  intro addr here
  rcases ruleLines_destination hostText listed here with rfl | member
  · exact isAddr_text host
  · exact isAddr_of_bypassed member

theorem rules_chain (proxyType : ProxyType) (hostText : bundle.host = host.text)
    (valid : ∀ addr ∈ bypassed device bundle.bypassAddrs, (readRange addr).isSome = true) :
    loadRules device.iptables.path (rules device (onStart bundle) proxyType) =
      some ((ruleLines device (onStart bundle) proxyType).map RuleLine.toRule) := by
  have readable : ∀ rule ∈ ruleLines device (onStart bundle) proxyType, rule.Readable :=
    fun rule listed => ruleLines_readable hostText listed
  have read : ∀ rule ∈ ruleLines device (onStart bundle) proxyType,
      ∀ addr ∈ rule.destination, (readRange addr).isSome = true := by
    intro rule listed addr here
    rcases ruleLines_destination hostText listed here with rfl | member
    · rw [readRange_text]
      rfl
    · exact valid addr member
  have replaced := replace_lines device.iptables.path readable
  rw [rules, cmd_lines, ← programName, replaced, loadRules_lines (iptables_path _) readable,
    mapM_rule? read]

theorem contains_address (address destination : Ipv4) :
    (Range.mk address.value 32 le_rfl).contains destination.value = decide (destination = address) := by
  have whole : 2 ^ (32 - 32) = 1 := rfl
  rw [Range.contains, whole, Nat.div_one, Nat.div_one, Bool.eq_iff_iff, beq_iff_eq,
    decide_eq_true_eq]
  exact ⟨Ipv4.value_injective, fun same => by rw [same]⟩

theorem forward_verdict (redirects : Bool) (proxyType : ProxyType) (packet : Packet) :
    firstMatch Rule.covers (·.target.verdict) .unmodified
      ((forwardLines redirects proxyType).map RuleLine.toRule) packet =
        forwardVerdict proxyType packet.port := by
  have single (entry : Option Nat × Nat) :
      (forwardLine redirects entry).toRule.covers packet = entry.1.all (· == packet.port) ∧
        (forwardLine redirects entry).toRule.target.verdict =
          .sentTo loopback.value entry.2 := by
    constructor
    · simp [forwardLine, RuleLine.toRule, RuleLine.withRange, Rule.covers]
    · cases redirects <;> rfl
  have ports : firstMatch Rule.covers (·.target.verdict) .unmodified
      ((forwardLines redirects proxyType).map RuleLine.toRule) packet =
        firstMatch (fun (entry : Option Nat × Nat) port => entry.1.all (· == port))
          (fun entry => .sentTo loopback.value entry.2) .unmodified (forwardedPorts proxyType)
          packet.port := by
    rw [forwardLines, List.map_map]
    induction forwardedPorts proxyType with
    | nil => rfl
    | cons entry entries ih =>
        simp only [List.map_cons, firstMatch, Function.comp_apply, single, ih]
  rw [ports]
  cases proxyType <;> simp only [forwardedPorts, firstMatch, forwardVerdict, Option.all_some,
    Option.all_none, beq_iff_eq, if_true]
  all_goals
    by_cases web : packet.port = 80
    · simp [web]
    · by_cases secure : packet.port = 443
      · simp [secure]
      · by_cases market : packet.port = 5228
        · simp [market]
        · simp [Ne.symm web, Ne.symm secure, Ne.symm market, web, secure, market]

theorem loadApps_fresh (self : Bool) : loadApps device (onStart bundle).apps self =
    getProxyedApps device.packages device.tordAppString self := rfl

theorem owner_verdict (redirects : Bool) (proxyType : ProxyType) (uids : List Nat)
    (packet : Packet) :
    firstMatch Rule.covers (·.target.verdict) .unmodified
      ((uids.flatMap fun uid => (forwardLines redirects proxyType).map
        (RuleLine.restrict uid)).map RuleLine.toRule) packet =
      if packet.uid ∈ uids then forwardVerdict proxyType packet.port else .unmodified := by
  have asRules : (uids.flatMap fun uid => (forwardLines redirects proxyType).map
      (RuleLine.restrict uid)).map RuleLine.toRule =
        uids.flatMap fun uid => ((forwardLines redirects proxyType).map RuleLine.toRule).map
          fun rule => { rule with uid := some uid } := by
    rw [List.map_flatMap]
    refine List.flatMap_congr fun uid _ => ?_
    rw [List.map_map, List.map_map]
    rfl
  have unowned : ∀ rule ∈ (forwardLines redirects proxyType).map RuleLine.toRule,
      rule.uid = none := by
    intro rule member
    obtain ⟨ruleLine, inside, rfl⟩ := List.mem_map.mp member
    obtain ⟨entry, -, rfl⟩ := List.mem_map.mp inside
    rfl
  rw [asRules, firstMatch_owners Rule.covers (·.target.verdict) .unmodified _
    (fun uid rule => { rule with uid := some uid }) packet.uid packet, forward_verdict]
  · intro rule member
    simp [Rule.covers, unowned rule member]
  · intro other foreign rule member
    simp [Rule.covers, foreign]
  · intro other rule member
    rfl

theorem apps_covered (uids : List Nat) (packet : Packet) :
    ((uids.map fun uid => RuleLine.returnAll.restrict uid).map RuleLine.toRule).any
      (·.covers packet) = decide (packet.uid ∈ uids) := by
  have covers (uid : Nat) :
      (RuleLine.returnAll.restrict uid).toRule.covers packet = (uid == packet.uid) := by
    simp [RuleLine.toRule, RuleLine.withRange, RuleLine.restrict, RuleLine.returnAll, Rule.covers]
  induction uids with
  | nil => rfl
  | cons uid uids ih =>
      rw [List.map_cons, List.map_cons, List.any_cons, covers, ih, Bool.eq_iff_iff, Bool.or_eq_true,
        beq_iff_eq, decide_eq_true_eq, decide_eq_true_eq, List.mem_cons, eq_comm]

def returnRule (range : Range) : Rule where
  protocol := some .tcp
  destination := some range
  dport := none
  uid := none
  target := .return

theorem toRule_returnTo {addr : Bytes} {range : Range} (found : readRange addr = some range) :
    (RuleLine.returnTo addr).toRule = returnRule range := by
  simp [RuleLine.toRule, RuleLine.withRange, RuleLine.returnTo, found, LineTarget.target,
    returnRule]

theorem covers_destination (range : Range) (packet : Packet) :
    (returnRule range).covers packet = range.contains packet.destination.value := by
  have tcp : (some Protocol.tcp != some Protocol.udp) = true := rfl
  rw [Rule.covers, returnRule, Option.all_some, Option.all_none, Option.all_none, Bool.and_true,
    Bool.and_true, tcp, Bool.true_and]

theorem covers_returnTo {addr : Bytes} {range : Range} (found : readRange addr = some range)
    (packet : Packet) :
    (RuleLine.returnTo addr).toRule.covers packet = range.contains packet.destination.value := by
  rw [toRule_returnTo found, covers_destination]

theorem addrs_covered (addrs : List Bytes)
    (read : ∀ addr ∈ addrs, (readRange addr).isSome = true) (packet : Packet) :
    ((addrs.map RuleLine.returnTo).map RuleLine.toRule).any (·.covers packet) =
      addrs.any fun addr => (readRange addr).any (·.contains packet.destination.value) := by
  induction addrs with
  | nil => rfl
  | cons addr addrs ih =>
      simp only [List.mem_cons, forall_eq_or_imp] at read
      obtain ⟨range, found⟩ := Option.isSome_iff_exists.mp read.1
      rw [List.map_cons, List.map_cons, List.any_cons, List.any_cons, ih read.2,
        covers_returnTo found, found, Option.any_some]

theorem returns_verdict {rules : List RuleLine} (known : ∀ rule ∈ rules, rule.target = .return) :
    ∀ rule ∈ rules.map RuleLine.toRule, rule.target.verdict = .unmodified := by
  intro rule member
  obtain ⟨ruleLine, inside, rfl⟩ := List.mem_map.mp member
  simp [RuleLine.toRule, RuleLine.withRange, known ruleLine inside, LineTarget.target,
    Target.verdict]

/-! ### The groups of lines in front of others -/

variable (packet : Packet) (rest : List RuleLine)

theorem dns_verdict :
    verdictOf (((if (onStart bundle).isDNSProxy then
      [dnsLine device.hasRedirectSupport device.dnsPort] else []) ++ rest).map RuleLine.toRule)
        packet = verdictOf (rest.map RuleLine.toRule) packet := by
  split <;> simp [verdictOf, firstMatch, RuleLine.toRule, RuleLine.withRange, dnsLine, Rule.covers]

theorem host_verdict (hostText : bundle.host = host.text) :
    verdictOf (([RuleLine.returnTo (onStart bundle).host] ++ rest).map RuleLine.toRule) packet =
      if packet.destination = host then .unmodified
      else verdictOf (rest.map RuleLine.toRule) packet := by
  have named : (onStart bundle).host = host.text := hostText
  have unmodified : (RuleLine.returnTo host.text).toRule.target.verdict = .unmodified := rfl
  rw [named, List.singleton_append, List.map_cons, verdictOf, firstMatch,
    covers_returnTo (readRange_text host), contains_address, unmodified]
  simp only [decide_eq_true_eq, verdictOf]

theorem addrs_verdict
    (valid : ∀ addr ∈ bypassed device bundle.bypassAddrs, (readRange addr).isSome = true) :
    verdictOf (((bypassed device (onStart bundle).bypassAddrs).map RuleLine.returnTo ++
      rest).map RuleLine.toRule) packet =
      if inBypassRange device bundle packet.destination = true then .unmodified
      else verdictOf (rest.map RuleLine.toRule) packet := by
  have targets : ∀ rule ∈ (bypassed device (onStart bundle).bypassAddrs).map RuleLine.returnTo,
      rule.target = .return := by
    intro rule member
    obtain ⟨addr, -, rfl⟩ := List.mem_map.mp member
    rfl
  have kept : (onStart bundle).bypassAddrs = bundle.bypassAddrs := rfl
  rw [verdictOf, List.map_append, firstMatch_append,
    firstMatch_agreeing _ _ _ (returns_verdict targets), kept, addrs_covered _ valid, inBypassRange,
    verdictOf]

theorem apps_verdict :
    verdictOf (((if (onStart bundle).isBypassApps then
      (loadApps device (onStart bundle).apps false).map fun uid =>
        RuleLine.returnAll.restrict uid else []) ++ rest).map RuleLine.toRule) packet =
      if bundle.isBypassApps = true ∧
          packet.uid ∈ getProxyedApps device.packages device.tordAppString false then
        .unmodified
      else verdictOf (rest.map RuleLine.toRule) packet := by
  have same : (onStart bundle).isBypassApps = bundle.isBypassApps := rfl
  by_cases bypass : bundle.isBypassApps = true
  · have targets : ∀ rule ∈ (loadApps device (onStart bundle).apps false).map
        fun uid => RuleLine.returnAll.restrict uid, rule.target = .return := by
      intro rule member
      obtain ⟨uid, -, rfl⟩ := List.mem_map.mp member
      rfl
    rw [same, if_pos bypass, verdictOf, List.map_append, firstMatch_append,
      firstMatch_agreeing _ _ _ (returns_verdict targets), apps_covered, loadApps_fresh]
    simp [bypass, verdictOf]
  · rw [same, if_neg bypass]
    simp [bypass]

theorem redirect_verdict (proxyType : ProxyType) :
    verdictOf ((if (onStart bundle).isAutoSetProxy || (onStart bundle).isBypassApps then
      forwardLines device.hasRedirectSupport proxyType
      else (loadApps device (onStart bundle).apps true).flatMap fun uid =>
        (forwardLines device.hasRedirectSupport proxyType).map (RuleLine.restrict uid)).map
          RuleLine.toRule) packet =
      if (bundle.isAutoSetProxy || bundle.isBypassApps) = true ∨
          packet.uid ∈ getProxyedApps device.packages device.tordAppString true then
        forwardVerdict proxyType packet.port
      else .unmodified := by
  have same : ((onStart bundle).isAutoSetProxy || (onStart bundle).isBypassApps) =
      (bundle.isAutoSetProxy || bundle.isBypassApps) := rfl
  rw [same]
  split
  · rename_i general
    rw [if_pos (.inl general)]
    exact forward_verdict _ _ packet
  · rename_i chosen
    rw [verdictOf, owner_verdict, loadApps_fresh]
    simp [chosen]

theorem ruleLines_verdict (hostText : bundle.host = host.text)
    (valid : ∀ addr ∈ bypassed device bundle.bypassAddrs, (readRange addr).isSome = true)
    (proxyType : ProxyType) (packet : Packet) :
    verdictOf ((ruleLines device (onStart bundle) proxyType).map RuleLine.toRule) packet =
      if packet.destination = host ∨ inBypassRange device bundle packet.destination = true then
        .unmodified
      else if bundle.isBypassApps = true ∧
          packet.uid ∈ getProxyedApps device.packages device.tordAppString false then
        .unmodified
      else if (bundle.isAutoSetProxy || bundle.isBypassApps) = true ∨
          packet.uid ∈ getProxyedApps device.packages device.tordAppString true then
        forwardVerdict proxyType packet.port
      else .unmodified := by
  rw [ruleLines, List.append_assoc, List.append_assoc, List.append_assoc, dns_verdict,
    host_verdict _ _ hostText, addrs_verdict _ _ valid, apps_verdict, redirect_verdict]
  by_cases atHost : packet.destination = host
  · simp [atHost]
  · by_cases bypass : inBypassRange device bundle packet.destination = true
    · simp [bypass]
    · simp [atHost, bypass]

end

/-- ProxyDroid's rules mean what the settings say. -/
theorem rules_mean_settings (device : Device) (bundle : Bundle) (host : Ipv4) (own : Nat)
    (hostText : bundle.host = host.text)
    (valid : ∀ addr ∈ bypassed device bundle.bypassAddrs, (readRange addr).isSome = true)
    (package : OwnPackage device.packages own) :
    ∃ script chain, (rootScripts device bundle).getLast? = some script ∧
      loadRules device.iptables.path script = some chain ∧
      ∀ packet, verdictOf chain packet = settingsVerdict device bundle host own packet := by
  have last : (rootScripts device bundle).getLast? =
      some (rules device (onStart bundle) (upstream (onStart bundle)).proxyType) := by
    simp [rootScripts, enableProxy, List.filterMap_append, Effect.rootScript]
  have sameForward (port : Nat) : forwardVerdict (upstream (onStart bundle)).proxyType port =
      forwardVerdict bundle.proxyType port := by
    have kept : (onStart bundle).proxyType = bundle.proxyType := rfl
    rw [upstream, kept]
    cases bundle.proxyType <;> rfl
  refine ⟨_, _, last, rules_chain _ hostText valid, fun packet => ?_⟩
  rw [ruleLines_verdict hostText valid, sameForward, settingsVerdict]
  simp only [mem_getProxyedApps package, Bool.or_eq_true]
  by_cases mine : packet.uid = own
  · simp [mine]
  · simp [mine, or_assoc]

def sampleDevice : Device where
  getHostAddress := fun _ => none
  packages :=
    { installed := [⟨10001, some (ascii "org.proxydroid")⟩, ⟨10002, some (ascii "a.b")⟩]
      nameForUid := fun uid => if uid = 10002 then ascii "a.b" else ascii "org.proxydroid" }
  tordAppString := ascii "a.b"
  hasRedirectSupport := true
  iptables := .default
  dnsPort := 5353

def sampleBundle : Bundle where
  host := ascii "10.0.0.1"
  port := 3128
  bypassAddrs := some (ascii "192.168.0.0/16")
  proxyType := .http
  user := ascii "me"
  password := ascii "secret"
  domain := []
  certificate := []
  isAuth := true
  isNTLM := false
  isDNSProxy := true
  isAutoSetProxy := false
  isBypassApps := true

theorem samplePackage : OwnPackage sampleDevice.packages 10001 where
  installed := ⟨⟨10001, some (ascii "org.proxydroid")⟩, by simp [sampleDevice]⟩
  ordinary := by decide
  alone := by
    have other : ascii "a.b" ≠ ascii "org.proxydroid" := by decide +kernel
    simp [sampleDevice, other]

theorem rules_mean_settings_sample :
    ∃ script chain, (rootScripts sampleDevice sampleBundle).getLast? = some script ∧
      loadRules sampleDevice.iptables.path script = some chain ∧
      ∀ packet, verdictOf chain packet =
        settingsVerdict sampleDevice sampleBundle ⟨10, 0, 0, 1⟩ 10001 packet :=
  rules_mean_settings sampleDevice sampleBundle ⟨10, 0, 0, 1⟩ 10001 (by decide +kernel)
    (by decide +kernel) samplePackage

end ProxySet.Droid
