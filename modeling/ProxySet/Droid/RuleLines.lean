import ProxySet.Droid.EnableProxy
import ProxySet.Droid.Iptables

/-!
The rules that `enableProxy` builds by replacing parts of its templates, as lines of
words and as the chain that they append.
-/

namespace ProxySet.Droid

open Shell TextReplace

/-! ### Lines of rules -/

inductive LineTarget where
  | return
  | redirect (port : Nat)
  | dnat (port : Nat)
  deriving DecidableEq

structure RuleLine where
  protocol : Protocol
  uid : Option Nat
  destination : Option Bytes
  /-- The blank that stands where a destination has been taken out. -/
  gap : Bool
  dport : Option Nat
  target : LineTarget
  deriving DecidableEq

def Protocol.word : Protocol → Bytes
  | .tcp => ascii "tcp"
  | .udp => ascii "udp"

def LineTarget.words : LineTarget → List Bytes
  | .return => [ascii "RETURN"]
  | .redirect port => [ascii "REDIRECT", ascii "--to", decimal port]
  | .dnat port => [ascii "DNAT", ascii "--to-destination", ascii "127.0.0.1:" ++ decimal port]

def LineTarget.target : LineTarget → Target
  | .return => .return
  | .redirect port => .redirect port
  | .dnat port => .dnat loopback.value port

namespace RuleLine

def ownerWords (rule : RuleLine) : List Bytes :=
  match rule.uid with
  | none => []
  | some uid => [ascii "-m", ascii "owner", ascii "--uid-owner", decimal uid]

def destinationWords (rule : RuleLine) : List Bytes :=
  match rule.destination with
  | none => []
  | some addr => [ascii "-d", addr]

def dportWords (rule : RuleLine) : List Bytes :=
  match rule.dport with
  | none => []
  | some port => [ascii "--dport", decimal port]

def tailFields (rule : RuleLine) : List Bytes :=
  [ascii "-A", ascii "OUTPUT", ascii "-p", rule.protocol.word] ++ rule.destinationWords ++
    (if rule.gap then [[]] else []) ++ rule.dportWords ++ [ascii "-j"] ++ rule.target.words

def tableFields (path : Bytes) (rule : RuleLine) : List Bytes :=
  [path, ascii "-t", ascii "nat"] ++ rule.ownerWords

def fields (path : Bytes) (rule : RuleLine) : List Bytes :=
  rule.tableFields path ++ rule.tailFields

def text (path : Bytes) (rule : RuleLine) : Bytes :=
  line (rule.fields path)

def restrict (uid : Nat) (rule : RuleLine) : RuleLine :=
  { rule with uid := some uid }

def returnTo (addr : Bytes) : RuleLine where
  protocol := .tcp
  uid := none
  destination := some addr
  gap := false
  dport := none
  target := .return

def returnAll : RuleLine where
  protocol := .tcp
  uid := none
  destination := none
  gap := true
  dport := none
  target := .return

end RuleLine

def forwardLine (redirects : Bool) (rule : Option Nat × Nat) : RuleLine where
  protocol := .tcp
  uid := none
  destination := none
  gap := false
  dport := rule.1
  target := if redirects then .redirect rule.2 else .dnat rule.2

def forwardedPorts : ProxyType → List (Option Nat × Nat)
  | .socks4 => [(none, 8123)]
  | .socks5 => [(none, 8123)]
  | .httpTunnel => [(some 80, 8123), (some 443, 8123), (some 5228, 8123)]
  | _ => [(some 80, 8123), (some 443, 8124), (some 5228, 8124)]

def forwardLines (redirects : Bool) (proxyType : ProxyType) : List RuleLine :=
  (forwardedPorts proxyType).map (forwardLine redirects)

def dnsLine (redirects : Bool) (port : Nat) : RuleLine where
  protocol := .udp
  uid := none
  destination := none
  gap := false
  dport := some 53
  target := if redirects then .redirect port else .dnat port

/-- The lines in the order in which `enableProxy` appends them. -/
def ruleLines (device : Device) (service : Service) (proxyType : ProxyType) : List RuleLine :=
  (if service.isDNSProxy then [dnsLine device.hasRedirectSupport device.dnsPort] else []) ++
  [.returnTo service.host] ++
  (bypassed device service.bypassAddrs).map .returnTo ++
  (if service.isBypassApps then
    (loadApps device service.apps false).map fun uid => RuleLine.returnAll.restrict uid else []) ++
  (if service.isAutoSetProxy || service.isBypassApps then
    forwardLines device.hasRedirectSupport proxyType
    else (loadApps device service.apps true).flatMap fun uid =>
      (forwardLines device.hasRedirectSupport proxyType).map (RuleLine.restrict uid))

/-! ### The templates -/

def programName : Bytes := ascii "iptables"

theorem text_split (path : Bytes) (rule : RuleLine) :
    rule.text path = (rule.tableFields path).flatMap (· ++ [32]) ++ line rule.tailFields := by
  have right : rule.tailFields ≠ [] := by simp [RuleLine.tailFields]
  rw [RuleLine.text, RuleLine.fields, line, joinFields_append right, line, List.append_assoc]

theorem returnCmd_text (addr : Bytes) : returnCmd addr = (RuleLine.returnTo addr).text programName := by
  have cut : cuts (ascii "0.0.0.0") cmdIptablesReturn =
      [ascii "iptables -t nat -A OUTPUT -p tcp -d ", ascii " -j RETURN\n"] := by
    unfold cmdIptablesReturn
    repeat rw [ascii_ofList]
    decide
  have front : ascii "iptables -t nat -A OUTPUT -p tcp -d " =
      ascii "iptables" ++ 32 :: (ascii "-t" ++ 32 :: (ascii "nat" ++ 32 :: (ascii "-A" ++ 32 ::
        (ascii "OUTPUT" ++ 32 :: (ascii "-p" ++ 32 :: (ascii "tcp" ++ 32 ::
          (ascii "-d" ++ [32]))))))) := by
    repeat rw [ascii_ofList]
    decide
  have back : ascii " -j RETURN\n" = 32 :: (ascii "-j" ++ 32 :: (ascii "RETURN" ++ [10])) := by
    repeat rw [ascii_ofList]
    decide
  rw [returnCmd, replace_eq_intercalate, cut, front, back]
  simp [RuleLine.text, RuleLine.fields, RuleLine.tableFields, RuleLine.ownerWords,
    RuleLine.tailFields, RuleLine.returnTo, RuleLine.destinationWords, RuleLine.dportWords,
    Protocol.word, LineTarget.words, line, joinFields, List.intercalate, programName]

def OneTable (rule : RuleLine) : Prop :=
  rule.uid = none ∧ cuts (ascii "-t nat") (rule.text programName) =
    [ascii "iptables ", 32 :: line rule.tailFields]

instance (rule : RuleLine) : Decidable (OneTable rule) := by
  unfold OneTable
  infer_instance

theorem ownerCmd_text (uid : Nat) {rule : RuleLine} (one : OneTable rule) :
    ownerCmd uid (rule.text programName) = (rule.restrict uid).text programName := by
  have front : ascii "iptables " = ascii "iptables" ++ [32] := by decide
  have owner : ascii "-t nat -m owner --uid-owner " = ascii "-t" ++ 32 :: (ascii "nat" ++ 32 ::
      (ascii "-m" ++ 32 :: (ascii "owner" ++ 32 :: (ascii "--uid-owner" ++ [32])))) := by
    repeat rw [ascii_ofList]
    decide
  have tail : (rule.restrict uid).tailFields = rule.tailFields := rfl
  rw [ownerCmd, replace_eq_intercalate, one.2, text_split, tail, front, owner]
  simp [RuleLine.tableFields, RuleLine.restrict, RuleLine.ownerWords, List.intercalate,
    programName]

theorem ownerCmd_lines (uid : Nat) {lines : List RuleLine} (one : ∀ rule ∈ lines, OneTable rule) :
    ownerCmd uid (lines.flatMap (RuleLine.text programName)) =
      (lines.map (RuleLine.restrict uid)).flatMap (RuleLine.text programName) := by
  have foreign : (10 : UInt8) ∉ ascii "-t nat" := by decide
  have nonempty : ascii "-t nat" ≠ [] := by decide
  induction lines with
  | nil => rfl
  | cons rule lines ih =>
      simp only [List.mem_cons, forall_eq_or_imp] at one
      have cut (text rest : Bytes) :
          ownerCmd uid (text ++ [10] ++ rest) = ownerCmd uid (text ++ [10]) ++ ownerCmd uid rest := by
        have whole := replace_break (ascii "-t nat -m owner --uid-owner " ++ decimal uid) foreign
          nonempty text rest
        have ended := replace_break (ascii "-t nat -m owner --uid-owner " ++ decimal uid) foreign
          nonempty text []
        rw [ownerCmd, ownerCmd, ownerCmd, ended]
        simpa [TextReplace.replace, replaceLoop] using whole
      rw [List.flatMap_cons, RuleLine.text, line, cut, ih one.2, List.map_cons, List.flatMap_cons]
      congr 1
      exact ownerCmd_text uid one.1

theorem forwardCmd_lines (device : Device) (proxyType : ProxyType) :
    forwardCmd device proxyType =
      (forwardLines device.hasRedirectSupport proxyType).flatMap (RuleLine.text programName) := by
  have templates : ∀ redirects proxyType,
      (if redirects then redirectCmd proxyType else dnatCmd proxyType) =
        (forwardLines redirects proxyType).flatMap (RuleLine.text programName) := by
    intro redirects proxyType
    cases redirects <;> cases proxyType <;>
      simp only [Bool.false_eq_true, if_false, if_true, redirectCmd, dnatCmd, forwardLines,
        forwardedPorts, forwardLine, List.map_cons, List.map_nil, cmdIptablesRedirectAddHttp,
        cmdIptablesDnatAddHttp, cmdIptablesRedirectAddHttpTunnel, cmdIptablesDnatAddHttpTunnel,
        cmdIptablesRedirectAddSocks, cmdIptablesDnatAddSocks, List.flatMap_cons, List.flatMap_nil,
        RuleLine.text, RuleLine.fields, RuleLine.tableFields, RuleLine.tailFields,
        RuleLine.ownerWords, RuleLine.destinationWords, RuleLine.dportWords, Protocol.word,
        LineTarget.words, programName] <;>
      repeat rw [ascii_ofList]
    all_goals decide +kernel
  exact templates device.hasRedirectSupport proxyType

theorem forwardLines_oneTable (redirects : Bool) (proxyType : ProxyType) :
    ∀ rule ∈ forwardLines redirects proxyType, OneTable rule := by
  cases redirects <;> cases proxyType <;> decide

theorem returnAppCmd_text (uid : Nat) :
    returnAppCmd uid = (RuleLine.returnAll.restrict uid).text programName := by
  have emptied : TextReplace.replace (ascii "-d 0.0.0.0") [] cmdIptablesReturn =
      RuleLine.returnAll.text programName := by decide
  rw [returnAppCmd, emptied, ownerCmd_text uid (by decide)]

theorem line_concat (fields : List Bytes) (last : Bytes) :
    line (fields ++ [last]) = fields.flatMap (· ++ [32]) ++ (last ++ [10]) := by
  rw [line, joinFields_append (List.cons_ne_nil last [])]
  simp [joinFields]

theorem dnsCmd_text (device : Device) :
    dnsCmd device = (dnsLine device.hasRedirectSupport device.dnsPort).text programName := by
  have newline : ascii "\n" = [10] := by decide
  unfold dnsCmd
  split
  · rename_i supported
    have front : ascii "iptables -t nat -A OUTPUT -p udp --dport 53 -j REDIRECT --to " =
        [ascii "iptables", ascii "-t", ascii "nat", ascii "-A", ascii "OUTPUT", ascii "-p",
          ascii "udp", ascii "--dport", ascii "53", ascii "-j", ascii "REDIRECT",
          ascii "--to"].flatMap (· ++ [32]) := by
      repeat rw [ascii_ofList]
      decide
    rw [front, newline, List.append_assoc, ← line_concat, supported]
    rfl
  · rename_i unsupported
    have front :
        ascii "iptables -t nat -A OUTPUT -p udp --dport 53 -j DNAT --to-destination 127.0.0.1:" =
        [ascii "iptables", ascii "-t", ascii "nat", ascii "-A", ascii "OUTPUT", ascii "-p",
          ascii "udp", ascii "--dport", ascii "53", ascii "-j", ascii "DNAT",
          ascii "--to-destination"].flatMap (· ++ [32]) ++ ascii "127.0.0.1:" := by
      repeat rw [ascii_ofList]
      decide
    rw [front, newline, List.append_assoc, List.append_assoc,
      ← List.append_assoc (ascii "127.0.0.1:"), ← line_concat,
      Bool.eq_false_of_not_eq_true unsupported]
    rfl

theorem cmd_lines (device : Device) (service : Service) (proxyType : ProxyType) :
    cmd device service proxyType =
      (ruleLines device service proxyType).flatMap (RuleLine.text programName) := by
  have returns (addrs : List Bytes) : addrs.flatMap returnCmd =
      (addrs.map RuleLine.returnTo).flatMap (RuleLine.text programName) := by
    rw [List.flatMap_map]
    exact List.flatMap_congr fun addr _ => returnCmd_text addr
  have apps (uids : List Nat) : uids.flatMap returnAppCmd =
      (uids.map fun uid => RuleLine.returnAll.restrict uid).flatMap (RuleLine.text programName) := by
    rw [List.flatMap_map]
    exact List.flatMap_congr fun uid _ => returnAppCmd_text uid
  have owners (uids : List Nat) :
      (uids.flatMap fun uid => ownerCmd uid (forwardCmd device proxyType)) =
        (uids.flatMap fun uid => (forwardLines device.hasRedirectSupport proxyType).map
          (RuleLine.restrict uid)).flatMap (RuleLine.text programName) := by
    rw [List.flatMap_assoc]
    refine List.flatMap_congr fun uid _ => ?_
    rw [forwardCmd_lines, ownerCmd_lines uid (forwardLines_oneTable _ _)]
  unfold cmd ruleLines
  rw [List.flatMap_append, List.flatMap_append, List.flatMap_append, List.flatMap_append]
  congr 1
  · congr 1
    · congr 1
      · congr 1
        · split
          · simp [dnsCmd_text]
          · rfl
        · simp [returnCmd_text]
      · exact returns _
    · split
      · exact apps _
      · rfl
  · split
    · exact forwardCmd_lines device proxyType
    · exact owners _

/-! ### The binary -/

def isAddrByte (byte : UInt8) : Bool :=
  isdigit byte || byte == 46 || byte == 47

def isAddr (addr : Bytes) : Bool :=
  !addr.isEmpty && addr.all isAddrByte

namespace RuleLine

def Readable (rule : RuleLine) : Prop :=
  ∀ addr ∈ rule.destination, isAddr addr = true

def fixedWords : List Bytes :=
  [ascii "-t", ascii "nat", ascii "-m", ascii "owner", ascii "--uid-owner", ascii "-A",
    ascii "OUTPUT", ascii "-p", ascii "tcp", ascii "udp", ascii "-d", ascii "--dport", ascii "-j",
    ascii "RETURN", ascii "REDIRECT", ascii "DNAT", ascii "--to", ascii "--to-destination"]

inductive Variable (rule : RuleLine) : Bytes → Prop
  | gap : rule.gap = true → Variable rule []
  | number (value : Nat) : Variable rule (decimal value)
  | addr {addr : Bytes} : addr ∈ rule.destination → Variable rule addr
  | endpoint (port : Nat) : Variable rule (ascii "127.0.0.1:" ++ decimal port)

theorem fields_cases (path : Bytes) (rule : RuleLine) :
    ∃ rest, rule.fields path = path :: rest ∧
      ∀ field ∈ rest, field ∈ fixedWords ∨ rule.Variable field := by
  refine ⟨[ascii "-t", ascii "nat"] ++ rule.ownerWords ++ rule.tailFields, rfl, ?_⟩
  intro field member
  simp only [tailFields, List.mem_append] at member
  rcases member with (member | member) | ((((member | member) | member) | member) | member) | member
  · simp only [List.mem_cons, List.not_mem_nil, or_false] at member
    rcases member with rfl | rfl <;> exact .inl (by simp [fixedWords])
  · cases here : rule.uid with
    | none => simp [ownerWords, here] at member
    | some uid =>
        simp only [ownerWords, here, List.mem_cons, List.not_mem_nil, or_false] at member
        rcases member with rfl | rfl | rfl | rfl
        · exact .inl (by simp [fixedWords])
        · exact .inl (by simp [fixedWords])
        · exact .inl (by simp [fixedWords])
        · exact .inr (.number uid)
  · simp only [List.mem_cons, List.not_mem_nil, or_false] at member
    rcases member with rfl | rfl | rfl | rfl
    · exact .inl (by simp [fixedWords])
    · exact .inl (by simp [fixedWords])
    · exact .inl (by simp [fixedWords])
    · cases rule.protocol <;> exact .inl (by simp [fixedWords, Protocol.word])
  · cases here : rule.destination with
    | none => simp [destinationWords, here] at member
    | some addr =>
        simp only [destinationWords, here, List.mem_cons, List.not_mem_nil, or_false] at member
        rcases member with rfl | rfl
        · exact .inl (by simp [fixedWords])
        · exact .inr (.addr here)
  · by_cases gap : rule.gap = true
    · simp only [gap, if_true, List.mem_singleton] at member
      subst member
      exact .inr (.gap gap)
    · simp [gap] at member
  · cases here : rule.dport with
    | none => simp [dportWords, here] at member
    | some port =>
        simp only [dportWords, here, List.mem_cons, List.not_mem_nil, or_false] at member
        rcases member with rfl | rfl
        · exact .inl (by simp [fixedWords])
        · exact .inr (.number port)
  · rw [List.mem_singleton] at member
    subst member
    exact .inl (by simp [fixedWords])
  · cases here : rule.target with
    | «return» =>
        simp only [LineTarget.words, here, List.mem_singleton] at member
        subst member
        exact .inl (by simp [fixedWords])
    | redirect port =>
        simp only [LineTarget.words, here, List.mem_cons, List.not_mem_nil, or_false] at member
        rcases member with rfl | rfl | rfl
        · exact .inl (by simp [fixedWords])
        · exact .inl (by simp [fixedWords])
        · exact .inr (.number port)
    | dnat port =>
        simp only [LineTarget.words, here, List.mem_cons, List.not_mem_nil, or_false] at member
        rcases member with rfl | rfl | rfl
        · exact .inl (by simp [fixedWords])
        · exact .inl (by simp [fixedWords])
        · exact .inr (.endpoint port)

theorem isAddrByte_facts {byte : UInt8} (known : isAddrByte byte = true) :
    byte ≠ 105 ∧ startsWord byte = true := by
  have checked := forall_byte
    (fun byte => !isAddrByte byte || (byte != 105 && startsWord byte)) (by decide +kernel) byte
  simpa [known] using checked

theorem digit_isAddrByte {byte : UInt8} (digit : isdigit byte = true) : isAddrByte byte = true := by
  simp [isAddrByte, digit]

theorem replace_field (path : Bytes) {rule : RuleLine} (readable : rule.Readable) {field : Bytes}
    (known : field ∈ fixedWords ∨ rule.Variable field) :
    TextReplace.replace programName path field = field := by
  have program : programName = 105 :: ascii "ptables" := by decide
  have digits (value : Nat) : (105 : UInt8) ∉ decimal value := by
    intro member
    exact (isAddrByte_facts (digit_isAddrByte (decimal_isdigit value 105 member))).1 rfl
  rcases known with fixed | varying
  · have whole : ∀ word ∈ fixedWords, cuts programName word = [word] := by decide
    rw [replace_eq_intercalate, whole field fixed]
    simp
  · rw [program]
    refine replace_of_not_mem path ?_
    cases varying with
    | gap => simp
    | number value => exact digits value
    | addr here =>
        intro member
        have known := readable field here
        simp only [isAddr, Bool.and_eq_true, List.all_eq_true] at known
        exact (isAddrByte_facts (known.2 105 member)).1 rfl
    | endpoint port =>
        have front : (105 : UInt8) ∉ ascii "127.0.0.1:" := by decide
        simp [front, digits port]

theorem replace_text (path : Bytes) {rule : RuleLine} (readable : rule.Readable) :
    TextReplace.replace programName path (rule.text programName) = rule.text path := by
  have nonempty : programName ≠ [] := by decide
  have noBlank : (32 : UInt8) ∉ programName := by decide
  have noNewline : (10 : UInt8) ∉ programName := by decide
  have program : TextReplace.replace programName path programName = path := by
    have cut : cuts programName programName = [[], []] := by decide
    rw [replace_eq_intercalate, cut]
    simp [List.intercalate]
  have mapped : (rule.fields programName).map (TextReplace.replace programName path) =
      rule.fields path := by
    obtain ⟨rest, split, known⟩ := rule.fields_cases programName
    have same : rule.fields path = path :: rest := by
      have tails : ∀ other, (rule.fields other).tail = rest := by
        intro other
        have fixed : (rule.fields other).tail = (rule.fields programName).tail := rfl
        rw [fixed, split]
        rfl
      rw [← tails path]
      rfl
    rw [split, same, List.map_cons, program]
    congr 1
    calc
      rest.map (TextReplace.replace programName path) = rest.map id :=
        List.map_congr_left fun field member => replace_field path readable (known field member)
      _ = rest := List.map_id rest
  have broken := replace_break path noNewline nonempty (joinFields (rule.fields programName)) []
  rw [text, line, broken, joinFields, replace_intercalate path noBlank nonempty, mapped]
  rfl

end RuleLine

theorem replace_lines (path : Bytes) {lines : List RuleLine}
    (readable : ∀ rule ∈ lines, rule.Readable) :
    TextReplace.replace programName path (lines.flatMap (RuleLine.text programName)) =
      lines.flatMap (RuleLine.text path) := by
  have nonempty : programName ≠ [] := by decide
  have noNewline : (10 : UInt8) ∉ programName := by decide
  induction lines with
  | nil => rfl
  | cons rule lines ih =>
      simp only [List.mem_cons, forall_eq_or_imp] at readable
      have ended := RuleLine.replace_text path readable.1
      have alone := replace_break path noNewline nonempty (joinFields (rule.fields programName)) []
      have whole := replace_break path noNewline nonempty (joinFields (rule.fields programName))
        (lines.flatMap (RuleLine.text programName))
      rw [List.flatMap_cons, List.flatMap_cons, ← ended, ← ih readable.2]
      simp only [RuleLine.text, line, List.append_assoc, List.singleton_append] at alone whole ⊢
      rw [whole, alone, List.append_assoc]
      rfl

/-! ### The chain -/

theorem splitOn_pair {mark : UInt8} {first second : Bytes} (left : mark ∉ first)
    (right : mark ∉ second) : (first ++ mark :: second).splitOn mark = [first, second] := by
  have joined : [mark].intercalate [first, second] = first ++ mark :: second := by
    simp [List.intercalate]
  rw [← joined]
  refine List.splitOn_intercalate mark ?_ (by simp)
  simp [left, right]

@[simp] theorem readNumber_decimal (value : Nat) : readNumber (decimal value) = some value := by
  have number := inetNumber_decimal value (by simp [EndsNumber] : EndsNumber [])
  rw [List.append_nil] at number
  rw [readNumber, number]

@[simp] theorem readEndpoint_loopback (port : Nat) :
    readEndpoint (ascii "127.0.0.1:" ++ decimal port) = some (loopback.value, port) := by
  have front : ascii "127.0.0.1:" = ascii "127.0.0.1" ++ [58] := by decide
  have address : inetAton (ascii "127.0.0.1") = some loopback.value := by decide
  have left : (58 : UInt8) ∉ ascii "127.0.0.1" := by decide
  have right : (58 : UInt8) ∉ decimal port := by
    intro member
    have digit := decimal_isdigit port 58 member
    revert digit
    decide
  rw [front, List.append_assoc, List.singleton_append, readEndpoint, splitOn_pair left right]
  simp [address]

namespace RuleLine

def withRange (rule : RuleLine) (range : Option Range) : Rule where
  protocol := some rule.protocol
  destination := range
  dport := rule.dport
  uid := rule.uid
  target := rule.target.target

/-- The rule that the line appends, if its destination can be read. -/
def rule? (rule : RuleLine) : Option Rule :=
  match rule.destination with
  | none => some (rule.withRange none)
  | some addr => (readRange addr).map fun range => rule.withRange (some range)

def words (path : Bytes) (rule : RuleLine) : List Bytes :=
  { rule with gap := false }.fields path

theorem readFlag_words :
    readFlag (ascii "-t") = some .table ∧ readFlag (ascii "-A") = some .append ∧
      readFlag (ascii "-p") = some .protocol ∧ readFlag (ascii "-d") = some .destination ∧
      readFlag (ascii "-m") = some .extension ∧ readFlag (ascii "--uid-owner") = some .uidOwner ∧
      readFlag (ascii "--dport") = some .dport ∧ readFlag (ascii "-j") = some .jump ∧
      readFlag (ascii "--to") = some .toPorts ∧
      readFlag (ascii "--to-destination") = some .toDestination := by
  decide

theorem readOptions_step {options next : Options} {word value : Bytes} {flag : Flag}
    (known : readFlag word = some flag) (read : options.read flag value = some next)
    (rest : List Bytes) : readOptions options (word :: value :: rest) = readOptions next rest := by
  simp [readOptions, known, read]

theorem readTarget (options : Options) (rule : RuleLine) :
    (readOptions options (ascii "-j" :: rule.target.words)).bind Options.rule =
      if options.table = some (ascii "nat") ∧ options.chain = some (ascii "OUTPUT") then
        some
          { protocol := options.protocol
            destination := options.destination
            dport := options.dport
            uid := options.uid
            target := rule.target.target }
      else none := by
  obtain ⟨-, -, -, -, -, -, -, jump, toPorts, toDestination⟩ := readFlag_words
  have notReturn : ascii "REDIRECT" ≠ ascii "RETURN" ∧ ascii "DNAT" ≠ ascii "RETURN" ∧
      ascii "DNAT" ≠ ascii "REDIRECT" := by decide
  cases rule.target with
  | «return» =>
      simp [LineTarget.words, readOptions, jump, Options.read, Options.rule, Options.target,
        LineTarget.target]
  | redirect port =>
      simp [LineTarget.words, readOptions, jump, toPorts, Options.read, Options.rule,
        Options.target, LineTarget.target, notReturn]
  | dnat port =>
      simp [LineTarget.words, readOptions, jump, toDestination, Options.read, Options.rule,
        Options.target, LineTarget.target, notReturn]

def readyOptions (rule : RuleLine) : Options :=
  { Options.start with
    table := some (ascii "nat")
    chain := some (ascii "OUTPUT")
    protocol := some rule.protocol
    owner := rule.uid.isSome
    uid := rule.uid }

theorem readFront (rule : RuleLine) (rest : List Bytes) :
    readOptions .start (ascii "-t" :: ascii "nat" :: (rule.ownerWords ++
      (ascii "-A" :: ascii "OUTPUT" :: ascii "-p" :: rule.protocol.word :: rest))) =
        readOptions rule.readyOptions rest := by
  obtain ⟨table, append, protocol, -, extension, uidOwner, -, -, -, -⟩ := readFlag_words
  have notTcp : ascii "udp" ≠ ascii "tcp" := by decide
  have named (options : Options) :
      options.read .protocol rule.protocol.word =
        some { options with protocol := some rule.protocol } := by
    cases rule.protocol <;> simp [Options.read, Protocol.word, notTcp]
  rw [readOptions_step table rfl]
  cases here : rule.uid with
  | none =>
      rw [ownerWords, here, List.nil_append, readOptions_step append rfl,
        readOptions_step protocol (named _), readyOptions, here]
      rfl
  | some uid =>
      rw [ownerWords, here, List.cons_append, List.cons_append, List.cons_append, List.cons_append,
        List.nil_append, readOptions_step extension (by simp [Options.read]; rfl),
        readOptions_step uidOwner (by simp [Options.read]; rfl), readOptions_step append rfl,
        readOptions_step protocol (named _), readyOptions, here]
      rfl

theorem readPort (rule : RuleLine) {options : Options} (known : options.protocol.isSome = true)
    (unset : options.dport = none) (rest : List Bytes) :
    readOptions options (rule.dportWords ++ rest) =
      readOptions { options with dport := rule.dport } rest := by
  obtain ⟨-, -, -, -, -, -, dport, -, -, -⟩ := readFlag_words
  cases here : rule.dport with
  | none =>
      have same : { options with dport := none } = options := by rw [← unset]
      rw [dportWords, here, same]
      rfl
  | some port =>
      rw [dportWords, here, List.cons_append, List.cons_append, List.nil_append,
        readOptions_step dport (by simp [Options.read, known]; rfl)]

theorem readRule_words (path : Bytes) (rule : RuleLine) :
    readRule path (rule.words path) = rule.rule? := by
  obtain ⟨-, -, -, destination, -, -, -, -, -, -⟩ := readFlag_words
  have shape : rule.words path = path :: ascii "-t" :: ascii "nat" :: (rule.ownerWords ++
      (ascii "-A" :: ascii "OUTPUT" :: ascii "-p" :: rule.protocol.word ::
        (rule.destinationWords ++ (rule.dportWords ++ (ascii "-j" :: rule.target.words))))) := by
    simp [words, fields, tableFields, tailFields, ownerWords, destinationWords, dportWords]
  rw [shape, readRule, if_pos rfl, readFront]
  cases here : rule.destination with
  | none =>
      rw [destinationWords, here, List.nil_append, readPort rule rfl rfl, readTarget]
      simp [rule?, here, withRange, readyOptions, Options.start]
  | some addr =>
      rw [destinationWords, here, List.cons_append, List.cons_append, List.nil_append]
      cases range : readRange addr with
      | none => simp [readOptions, destination, Options.read, rule?, here, range]
      | some found =>
          have read : rule.readyOptions.read .destination addr =
              some { rule.readyOptions with destination := some found } := by
            simp [Options.read, range]
          rw [readOptions_step destination read, readPort rule rfl rfl, readTarget]
          simp [rule?, here, range, withRange, readyOptions, Options.start]

theorem isLiteralWord_addr {addr : Bytes} (known : isAddr addr = true) :
    isLiteralWord addr = true := by
  simp only [isAddr, Bool.and_eq_true, Bool.not_eq_true', List.isEmpty_eq_false_iff,
    List.all_eq_true] at known
  exact isLiteralWord_of_all known.1 fun byte member => (isAddrByte_facts (known.2 byte member)).2

theorem isAddr_decimal (value : Nat) : isAddr (decimal value) = true := by
  simp only [isAddr, Bool.and_eq_true, Bool.not_eq_true', List.isEmpty_eq_false_iff,
    List.all_eq_true]
  exact ⟨decimal_ne_nil value, fun byte member => digit_isAddrByte (decimal_isdigit value byte member)⟩

theorem isField_of_known {rule : RuleLine} (readable : rule.Readable) {field : Bytes}
    (known : field ∈ fixedWords ∨ rule.Variable field) : isField field = true := by
  rcases known with fixed | varying
  · have all : ∀ word ∈ fixedWords, isField word = true := by decide
    exact all field fixed
  · cases varying with
    | gap => rfl
    | number value => simp [isField, isLiteralWord_addr (isAddr_decimal value)]
    | addr here => simp [isField, isLiteralWord_addr (readable field here)]
    | endpoint port =>
        have front : isLiteralWord (ascii "127.0.0.1:") = true := by decide
        have digits : ∀ byte ∈ decimal port, isLiteral byte = true := fun byte member =>
          isLiteral_of_startsWord
            (isAddrByte_facts (digit_isAddrByte (decimal_isdigit port byte member))).2
        rw [isField, isLiteralWord_append front digits, Bool.or_true]

theorem filter_fields {path : Bytes} {rule : RuleLine} (nonempty : path ≠ [])
    (readable : rule.Readable) :
    ((rule.fields path).filter fun field => !field.isEmpty) = rule.words path := by
  have fixed : ∀ word ∈ fixedWords, word ≠ [] := by decide
  have solid : ∀ field ∈ rule.words path, (!field.isEmpty) = true := by
    intro field member
    obtain ⟨rest, split, known⟩ := { rule with gap := false }.fields_cases path
    rw [words, split, List.mem_cons] at member
    simp only [Bool.not_eq_true', List.isEmpty_eq_false_iff]
    rcases member with rfl | member
    · exact nonempty
    · rcases known field member with word | varying
      · exact fixed field word
      · cases varying with
        | gap impossible => simp at impossible
        | number value => exact decimal_ne_nil value
        | addr here =>
            rintro rfl
            simpa [isAddr] using readable [] here
        | endpoint port => simp [decimal_ne_nil]
  have keeps := List.filter_eq_self.mpr solid
  rw [← keeps]
  cases gap : rule.gap with
  | false =>
      have same : { rule with gap := false } = rule := by rw [← gap]
      rw [words, same]
  | true =>
      simp only [words, fields, tailFields, tableFields, ownerWords, destinationWords, dportWords,
        gap, if_true, List.filter_append]
      simp

theorem fieldWords_fields {path : Bytes} {rule : RuleLine} (nonempty : path ≠ [])
    (readable : rule.Readable) :
    fieldWords (rule.fields path) = (rule.words path).map literal := by
  rw [fieldWords, filter_fields nonempty readable]

theorem runRule_words (path : Bytes) (rule : RuleLine) :
    runRule path ⟨(rule.words path).map literal, 10⟩ = rule.rule? := by
  rw [runRule, if_pos rfl, arguments_literal, Option.bind_some, readRule_words]

end RuleLine

theorem readCommands_ruleLines {path : Bytes} (program : isLiteralWord path = true)
    {lines : List RuleLine} (readable : ∀ rule ∈ lines, rule.Readable) :
    readCommands (lines.flatMap (RuleLine.text path)) =
      some (lines.map fun rule => ⟨(rule.words path).map literal, 10⟩) := by
  have nonempty : path ≠ [] := by
    rintro rfl
    simp [isLiteralWord] at program
  have known : ∀ fields ∈ lines.map (RuleLine.fields path), ∀ field ∈ fields,
      isField field = true := by
    intro fields member field inside
    obtain ⟨rule, listed, rfl⟩ := List.mem_map.mp member
    obtain ⟨rest, split, kinds⟩ := rule.fields_cases path
    rw [split, List.mem_cons] at inside
    rcases inside with rfl | inside
    · simp [isField, program]
    · exact RuleLine.isField_of_known (readable rule listed) (kinds field inside)
  have filled : ∀ fields ∈ lines.map (RuleLine.fields path), fieldWords fields ≠ [] := by
    intro fields member
    obtain ⟨rule, listed, rfl⟩ := List.mem_map.mp member
    rw [RuleLine.fieldWords_fields nonempty (readable rule listed)]
    simp [RuleLine.words, RuleLine.fields, RuleLine.tableFields]
  have text : lines.flatMap (RuleLine.text path) =
      (lines.map (RuleLine.fields path)).flatMap line := by
    rw [List.flatMap_map]
    rfl
  rw [text, readCommands_lines known filled, List.map_map]
  congr 1
  refine List.map_congr_left fun rule listed => ?_
  rw [Function.comp_apply, RuleLine.fieldWords_fields nonempty (readable rule listed)]

theorem loadRules_lines {path : Bytes} (program : isLiteralWord path = true) {lines : List RuleLine}
    (readable : ∀ rule ∈ lines, rule.Readable) :
    loadRules path (lines.flatMap (RuleLine.text path)) = lines.mapM RuleLine.rule? := by
  rw [loadRules, readCommands_ruleLines program readable, Option.bind_some]
  clear readable
  induction lines with
  | nil => rfl
  | cons rule lines ih =>
      rw [List.map_cons, List.mapM_cons, List.mapM_cons, ih, RuleLine.runRule_words]

end ProxySet.Droid
