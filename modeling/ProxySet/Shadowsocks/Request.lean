import ProxySet.Redsocks.Socks5
import ProxySet.Shadowsocks.Local

/-!
The address that `local.c` takes out of a request and sends ahead.  `addr_len` is a
byte, so a long domain name makes it start again from zero, and the longest one does not
fit into the array.
-/

namespace ProxySet.Shadowsocks

variable {addr : AddrToSend} {text name rest address buf : Bytes} {byte kind size : UInt8}

/-- The text stands in front of the array, and `addr_len` is its length. -/
structure Holds (addr : AddrToSend) (text : Bytes) : Prop where
  room : addr.bytes.length = 256
  len : addr.len.toNat = text.length
  front : addr.bytes.take text.length = text

theorem Holds.take_len (holds : Holds addr text) : addr.bytes.take addr.len.toNat = text := by
  rw [holds.len]
  exact holds.front

theorem holds_new : Holds newAddrToSend [] :=
  ⟨List.length_replicate, rfl, rfl⟩

theorem Holds.push (holds : Holds addr text) (fits : text.length < 255) (byte : UInt8) :
    Holds (addr.push byte) (text ++ [byte]) := by
  have room := holds.room
  refine ⟨?_, ?_, ?_⟩
  · simpa [AddrToSend.push] using room
  · rw [AddrToSend.push, UInt8.toNat_add, holds.len]
    simp only [UInt8.reduceToNat, List.length_append, List.length_cons, List.length_nil]
    omega
  · simp only [AddrToSend.push, holds.len, List.length_append, List.length_cons, List.length_nil]
    rw [List.take_succ_eq_append_getElem (by simp [room]; omega), List.getElem_set_self,
      List.take_set_of_le (Nat.le_refl _), holds.front]

theorem Holds.copy (holds : Holds addr text) (data : Bytes)
    (fits : text.length + data.length ≤ 255) :
    ∃ next, addr.copy data = some next ∧ Holds next (text ++ data) := by
  have room := holds.room
  have within : addr.len.toNat + data.length ≤ addr.bytes.length := by
    rw [holds.len, room]
    omega
  rw [AddrToSend.copy, if_pos within]
  refine ⟨_, rfl, ?_, ?_, ?_⟩
  · simp only [holds.len, List.length_append, List.length_take, List.length_drop]
    omega
  · rw [UInt8.toNat_add, holds.len, List.length_append, Nat.toUInt8_eq, UInt8.toNat_ofNat']
    omega
  · rw [holds.len, holds.front, ← List.append_assoc, List.length_append, ← List.length_append,
      List.take_left]

theorem addrToSend_ipv4 {version command reserved : UInt8} (short : address.length = 6) :
    ∃ addr, addrToSend ([version, command, reserved, 1] ++ address ++ rest) = .sends addr ∧
      Holds addr (1 :: address) := by
  have pushed := holds_new.push (by simp) 1
  obtain ⟨copied, made, holds⟩ := pushed.copy address (by simp [short])
  refine ⟨copied, ?_, holds⟩
  simp [addrToSend, short, made, AddrResult.ofCopy]

def domainBegun (size : UInt8) : AddrToSend :=
  (newAddrToSend.push 3).push size

theorem holds_domainBegun (size : UInt8) : Holds (domainBegun size) [3, size] :=
  (holds_new.push (by simp) 3).push (by simp) size

theorem addrToSend_domain {version command reserved first last : UInt8}
    (length : name.length = size.toNat) :
    addrToSend ([version, command, reserved, 3] ++ (size :: name ++ [first, last]) ++ rest) =
      .ofCopy (((domainBegun size).copy name).map fun named => (named.push first).push last) := by
  have taken : (name ++ first :: last :: rest).take size.toNat = name := by
    rw [← length, List.take_left]
  have spot : 5 + name.length = name.length + 5 := Nat.add_comm ..
  simp [addrToSend, ← length, spot, domainBegun]

theorem domain_whole {first last : UInt8} (length : name.length = size.toNat)
    (short : size.toNat ≤ 251) :
    ∃ addr, ((domainBegun size).copy name).map (fun named => (named.push first).push last) =
        some addr ∧ Holds addr (3 :: size :: name ++ [first, last]) := by
  obtain ⟨named, copied, holds⟩ := (holds_domainBegun size).copy name
    (by simp only [List.length_cons, List.length_nil]; omega)
  have ended := (holds.push (by simp; omega) first).push (by simp; omega) last
  refine ⟨_, by rw [copied]; rfl, ?_⟩
  simpa using ended

/-- The count starts again, so at most the last bytes are sent. -/
theorem domain_wraps {first last : UInt8} (length : name.length = size.toNat)
    (long : 251 < size.toNat) (below : size.toNat < 255) :
    ∃ addr, ((domainBegun size).copy name).map (fun named => (named.push first).push last) =
        some addr ∧ addr.len.toNat ≤ 2 := by
  have begun := holds_domainBegun size
  have within : (domainBegun size).len.toNat + name.length ≤ (domainBegun size).bytes.length := by
    rw [begun.len, begun.room, length]
    simp only [List.length_cons, List.length_nil]
    omega
  refine ⟨_, by rw [AddrToSend.copy, if_pos within]; rfl, ?_⟩
  simp only [AddrToSend.push, UInt8.toNat_add, begun.len, length, Nat.toUInt8_eq,
    UInt8.toNat_ofNat', List.length_cons, List.length_nil]
  simp only [UInt8.reduceToNat]
  omega

/-- A name of 255 bytes is copied behind the end of the array. -/
theorem domain_overruns (length : name.length = size.toNat) (longest : size.toNat = 255) :
    (domainBegun size).copy name = none := by
  have begun := holds_domainBegun size
  rw [AddrToSend.copy, if_neg]
  rw [begun.len, begun.room, length, longest]
  simp

def Supported (kind : UInt8) (address : Bytes) : Prop :=
  kind = 1 ∨ kind = 3 ∧ address.length ≤ 254

instance (kind : UInt8) (address : Bytes) : Decidable (Supported kind address) :=
  inferInstanceAs (Decidable (_ ∨ _ ∧ _))

theorem Address.domain_split {bytes : Bytes} (long : bytes.length = size.toNat + 2) :
    ∃ (name : Bytes) (first last : UInt8), bytes = name ++ [first, last] ∧
      name.length = size.toNat := by
  have two : (bytes.drop size.toNat).length = 2 := by
    rw [List.length_drop]
    omega
  obtain ⟨first, last, back⟩ := List.length_eq_two.mp two
  refine ⟨bytes.take size.toNat, first, last, by rw [← back, List.take_append_drop], ?_⟩
  rw [List.length_take]
  omega

theorem addrToSend_supported {version command reserved kind : UInt8} (asked : Address kind address)
    (supported : Supported kind address) (rest : Bytes) :
    ∃ addr, addrToSend ([version, command, reserved, kind] ++ address ++ rest) = .sends addr ∧
      Holds addr (kind :: address) := by
  cases asked with
  | ipv4 short => exact addrToSend_ipv4 short
  | ipv6 long => simp [Supported] at supported
  | @domain size bytes long =>
      obtain ⟨name, first, last, rfl, length⟩ := Address.domain_split long
      have short : size.toNat ≤ 251 := by
        have fits := (supported.resolve_left (by decide)).2
        simp only [List.length_cons, List.length_append, List.length_nil] at fits
        omega
      obtain ⟨addr, made, holds⟩ := @domain_whole name size first last length short
      have done := @addrToSend_domain name rest size version command reserved first last length
      exact ⟨addr, done.trans (by rw [made]; rfl), holds⟩

theorem addrToSend_long {version command reserved : UInt8} (asked : Address 3 address)
    (long : 254 < address.length) (rest : Bytes) :
    (address.length < 258 ∧ ∃ addr, addrToSend ([version, command, reserved, 3] ++ address ++ rest) =
        .sends addr ∧ addr.len.toNat ≤ 2) ∨
      address.length = 258 ∧
        addrToSend ([version, command, reserved, 3] ++ address ++ rest) = .overrun := by
  cases asked with
  | @domain size bytes sized =>
      obtain ⟨name, first, last, rfl, length⟩ := Address.domain_split sized
      have done := @addrToSend_domain name rest size version command reserved first last length
      have bound := size.toNat_lt
      simp only [List.length_cons, List.length_append, List.length_nil, length] at long ⊢
      by_cases longest : size.toNat = 255
      · refine .inr ⟨by omega, done.trans ?_⟩
        rw [domain_overruns length longest]
        rfl
      · obtain ⟨addr, made, few⟩ :=
          @domain_wraps name size first last length (by omega) (by omega)
        exact .inl ⟨by omega, addr, done.trans (by rw [made]; rfl), few⟩

/-- Of a whole request to connect, the address sent ahead is that of the request exactly for IPv4
addresses and for domain names of at most 251 bytes.  Of a longer name at most two bytes are sent,
and one of 255 bytes is written behind the end of the array; other address types are refused. -/
theorem header_whole_iff :
    (∀ {version command reserved kind : UInt8} {address : Bytes}, Address kind address →
      ∀ rest, (∃ addr,
        addrToSend ([version, command, reserved, kind] ++ address ++ rest) = .sends addr ∧
          addr.bytes.take addr.len.toNat = kind :: address) ↔ Supported kind address) ∧
    (∀ {version command reserved : UInt8} {address : Bytes}, Address 3 address →
      254 < address.length → ∀ rest,
        (address.length < 258 ∧ ∃ addr, addrToSend ([version, command, reserved, 3] ++ address ++
          rest) = .sends addr ∧ addr.len.toNat ≤ 2) ∨
        address.length = 258 ∧
          addrToSend ([version, command, reserved, 3] ++ address ++ rest) = .overrun) ∧
    ∀ buf : Bytes, addrToSend buf = .refused ↔ buf.getD 3 0 ≠ 1 ∧ buf.getD 3 0 ≠ 3 := by
  refine ⟨?_, fun asked long rest => addrToSend_long asked long rest, ?_⟩
  · intro version command reserved kind address asked rest
    constructor
    · rintro ⟨addr, made, whole⟩
      by_contra unsupported
      cases asked with
      | ipv4 short => exact unsupported (.inl rfl)
      | ipv6 long => simp [addrToSend] at made
      | @domain size bytes sized =>
          have long : 254 < (size :: bytes).length :=
            Nat.lt_of_not_le fun fits => unsupported (.inr ⟨rfl, fits⟩)
          rcases addrToSend_long (.domain sized) long rest with ⟨-, other, same, few⟩ | ⟨-, overrun⟩
          · obtain rfl := AddrResult.sends.inj (made.symm.trans same)
            have sizes := congrArg List.length whole
            simp only [List.length_take, List.length_cons] at sizes long
            omega
          · rw [overrun] at made
            cases made
    · intro supported
      obtain ⟨addr, made, holds⟩ := @addrToSend_supported address version command reserved kind asked
        supported rest
      exact ⟨addr, made, holds.take_len⟩
  · intro buf
    have copies : ∀ copied, AddrResult.ofCopy copied ≠ .refused := by
      rintro (_ | addr) <;> simp [AddrResult.ofCopy]
    simp only [addrToSend]
    split
    · next one => exact iff_of_false (copies _) fun other => other.1 one
    · split
      · next three => exact iff_of_false (copies _) fun other => other.2 three
      · next one three => exact iff_of_true rfl ⟨one, three⟩

/-- The names `io` and one of 255 bytes. -/
theorem header_whole_iff_domain :
    (∃ addr, addrToSend ([5, 1, 0, 3] ++ ([2, 105, 111] ++ [1, 187]) ++ []) = .sends addr ∧
      addr.bytes.take addr.len.toNat = 3 :: ([2, 105, 111] ++ [1, 187])) ∧
    addrToSend ([5, 1, 0, 3] ++ (255 :: List.replicate 257 97) ++ []) = .overrun := by
  constructor
  · have asked : Address 3 ([2, 105, 111] ++ [1, 187]) := .domain rfl
    exact (header_whole_iff.1 asked []).mpr (by decide)
  · have asked : Address 3 (255 :: List.replicate 257 97) := .domain List.length_replicate
    have size : (255 :: List.replicate 257 97 : Bytes).length = 258 := by
      rw [List.length_cons, List.length_replicate]
    rcases header_whole_iff.2.1 asked (by omega) [] with ⟨short, -⟩ | ⟨-, overrun⟩
    · exact absurd short (by omega)
    · exact overrun

end ProxySet.Shadowsocks
