import ProxySet.Redsocks.ParserCore

/-!
Numbers and addresses as they are printed in decimal, and what the readers of C
make of such a text.
-/

namespace ProxySet

theorem forall_small {bound : Nat} (holds : Nat → Bool)
    (all : (List.range bound).all holds = true) {value : Nat} (small : value < bound) :
    holds value = true :=
  List.all_eq_true.mp all value (List.mem_range.mpr small)

theorem digitChar_code {value : Nat} (small : value < 10) :
    (Nat.digitChar value).toNat.toUInt8 = (48 + value).toUInt8 := by
  have checked := forall_small
    (fun value => (Nat.digitChar value).toNat.toUInt8 == (48 + value).toUInt8)
    (by decide : ((List.range 10).all fun value =>
      (Nat.digitChar value).toNat.toUInt8 == (48 + value).toUInt8) = true) small
  simpa using checked

theorem decimal_of_lt {value : Nat} (small : value < 10) :
    decimal value = [(48 + value).toUInt8] := by
  simp [decimal, Nat.toDigits_of_lt_base small, digitChar_code small]

theorem decimal_of_le {value : Nat} (large : 10 ≤ value) :
    decimal value = decimal (value / 10) ++ [(48 + value % 10).toUInt8] := by
  rw [decimal, Nat.toDigits_of_base_le (by decide) large, List.map_append, List.map_singleton,
    digitChar_code (Nat.mod_lt value (by decide))]
  rfl

theorem decimal_induction {motive : Nat → Prop} (digit : ∀ value, value < 10 → motive value)
    (more : ∀ value, 10 ≤ value → motive (value / 10) → motive value) (value : Nat) :
    motive value := by
  induction value using Nat.strongRecOn with
  | ind value ih =>
      rcases Nat.lt_or_ge value 10 with small | large
      · exact digit value small
      · exact more value large (ih (value / 10) (by omega))

theorem digit_code {value : Nat} (small : value < 10) :
    isdigit (48 + value).toUInt8 = true ∧ digitValue (48 + value).toUInt8 = value := by
  have checked := forall_small
    (fun value => isdigit (48 + value).toUInt8 && digitValue (48 + value).toUInt8 == value)
    (by decide : ((List.range 10).all fun value =>
      isdigit (48 + value).toUInt8 && digitValue (48 + value).toUInt8 == value) = true) small
  simpa using checked

theorem decimal_ne_nil (value : Nat) : decimal value ≠ [] := by
  rcases Nat.lt_or_ge value 10 with small | large
  · simp [decimal_of_lt small]
  · simp [decimal_of_le large]

theorem decimal_isdigit (value : Nat) : ∀ byte ∈ decimal value, isdigit byte = true := by
  induction value using decimal_induction with
  | digit value small => simpa [decimal_of_lt small] using (digit_code small).1
  | more value large ih =>
      intro byte member
      rw [decimal_of_le large, List.mem_append, List.mem_singleton] at member
      rcases member with member | rfl
      · exact ih byte member
      · exact (digit_code (Nat.mod_lt value (by decide))).1

theorem valueIn_append (base : Nat) (digits : Bytes) (digit : UInt8) :
    valueIn base (digits ++ [digit]) = valueIn base digits * base + digitValue digit := by
  simp [valueIn]

theorem valueIn_decimal (value : Nat) : valueIn 10 (decimal value) = value := by
  induction value using decimal_induction with
  | digit value small =>
      rw [decimal_of_lt small, ← List.nil_append [_], valueIn_append, (digit_code small).2]
      simp [valueIn]
  | more value large ih =>
      rw [decimal_of_le large, valueIn_append, ih, (digit_code (Nat.mod_lt value (by decide))).2]
      omega

theorem decimal_head {value : Nat} (positive : 0 < value) : (decimal value).head? ≠ some 48 := by
  induction value using decimal_induction with
  | digit value small =>
      have checked := forall_small
        (fun value => value == 0 || (48 + value).toUInt8 != 48)
        (by decide : ((List.range 10).all fun value =>
          value == 0 || (48 + value).toUInt8 != 48) = true) small
      simp only [Bool.or_eq_true, beq_iff_eq, bne_iff_ne, Nat.ne_of_gt positive, false_or] at checked
      rw [decimal_of_lt small]
      simpa only [List.head?_cons, ne_eq, Option.some.injEq] using checked
  | more value large ih =>
      rw [decimal_of_le large, List.head?_append_of_ne_nil _ (decimal_ne_nil _)]
      exact ih (by omega)

def EndsNumber (rest : Bytes) : Prop :=
  ∀ byte ∈ rest.head?, byte = 46

theorem digitsIn_append {base : Nat} {digits rest : Bytes}
    (inside : ∀ byte ∈ digits, digitValue byte < base) (small : base ≤ 255)
    (ends : EndsNumber rest) : digitsIn base (digits ++ rest) = digits := by
  rw [digitsIn, List.takeWhile_append_of_pos (by simpa using inside)]
  cases rest with
  | nil => simp
  | cons byte rest =>
      obtain rfl : byte = 46 := ends byte rfl
      have point : digitValue 46 = 255 := by decide
      rw [List.takeWhile_cons_of_neg (by simp [point, small]), List.append_nil]

theorem digitValue_decimal (value : Nat) : ∀ byte ∈ decimal value, digitValue byte < 10 := by
  intro byte member
  have digit := decimal_isdigit value byte member
  have checked := forall_byte (fun byte => !isdigit byte || decide (digitValue byte < 10))
    (by decide +kernel) byte
  simpa [digit] using checked

/-- The reader of numbers of C, on a printed number. -/
theorem numberBase_decimal (value : Nat) {rest : Bytes} (ends : EndsNumber rest) :
    (numberBase (decimal value ++ rest)).2 = decimal value ++ rest ∧
      digitsIn (numberBase (decimal value ++ rest)).1 (decimal value ++ rest) = decimal value ∧
      valueIn (numberBase (decimal value ++ rest)).1 (decimal value) = value := by
  rcases Nat.eq_zero_or_pos value with rfl | positive
  · have zero : decimal 0 = [48] := decimal_of_lt (by decide)
    have octal : numberBase (decimal 0 ++ rest) = (8, decimal 0 ++ rest) := by
      rw [zero]
      match rest with
      | [] => rfl
      | [byte] => rfl
      | byte :: other :: rest =>
          obtain rfl : byte = 46 := ends byte rfl
          simp [numberBase]
    rw [octal]
    refine ⟨rfl, digitsIn_append ?_ (Nat.le_of_ble_eq_true rfl) ends, ?_⟩
    · simp only [zero, List.mem_singleton, forall_eq]
      decide
    · rw [zero]
      rfl
  · have ten : numberBase (decimal value ++ rest) = (10, decimal value ++ rest) := by
      have front := decimal_head positive
      cases here : decimal value with
      | nil => exact absurd here (decimal_ne_nil value)
      | cons byte digits =>
          have notZero : byte ≠ 48 := by simpa [here] using front
          unfold numberBase
          split <;> simp_all
    rw [ten]
    have small : 10 ≤ 255 := by decide
    exact ⟨rfl, digitsIn_append (digitValue_decimal value) small ends, valueIn_decimal value⟩

theorem decimal_head_isdigit (value : Nat) (rest : Bytes) :
    ((decimal value ++ rest).head?.any isdigit) = true := by
  have digits := decimal_isdigit value
  cases here : decimal value with
  | nil => exact absurd here (decimal_ne_nil value)
  | cons byte more =>
      rw [here] at digits
      simpa using digits byte (by simp)

theorem inetNumber_decimal (value : Nat) {rest : Bytes} (ends : EndsNumber rest) :
    inetNumber (decimal value ++ rest) = some (value, rest) := by
  obtain ⟨same, digits, known⟩ := numberBase_decimal value ends
  rw [inetNumber, if_pos (decimal_head_isdigit value rest)]
  simp only [same, digits, known, List.drop_left]

theorem isspace_of_isdigit {byte : UInt8} (digit : isdigit byte = true) : isspace byte = false := by
  have checked := forall_byte (fun byte => !isdigit byte || !isspace byte) (by decide +kernel) byte
  simpa [digit] using checked

theorem strtoul_decimal (platform : Platform) (value : Nat) : strtoul platform (decimal value) =
    (if 2 ^ platform.longBits ≤ value then 2 ^ platform.longBits - 1 else value, []) := by
  have ends : EndsNumber [] := by simp [EndsNumber]
  obtain ⟨same, digits, known⟩ := numberBase_decimal value ends
  simp only [List.append_nil] at same digits known
  have front := decimal_isdigit value
  have start : (decimal value).dropWhile isspace = decimal value ∧
      ¬((decimal value).head? = some 45 ∨ (decimal value).head? = some 43) ∧
      (decimal value).head? ≠ some 45 := by
    cases here : decimal value with
    | nil => exact absurd here (decimal_ne_nil value)
    | cons byte more =>
        have digit : isdigit byte = true := front byte (by simp [here])
        have unsigned : byte ≠ 45 ∧ byte ≠ 43 := by
          constructor
          · rintro rfl
            revert digit
            decide
          · rintro rfl
            revert digit
            decide
        rw [List.dropWhile_cons_of_neg (by simp [isspace_of_isdigit digit])]
        simp [unsigned]
  have filled : (decimal value).isEmpty = false := by
    simpa using decimal_ne_nil value
  simp only [strtoul, start.1, if_neg start.2.1, same, digits, known, filled, List.drop_length]
  simp [start.2.2]

theorem vpUint16_decimal (platform : Platform) (wide : 16 ≤ platform.longBits) {value : Nat}
    (small : value < 2 ^ 16) : vpUint16 platform (decimal value) = .ok (.uint16 value) := by
  have fits : value < 2 ^ platform.longBits :=
    small.trans_le (Nat.pow_le_pow_right (by decide) wide)
  have range : ¬0xFFFF < value := by omega
  simp [vpUint16, strtoul_decimal platform, Nat.not_le.mpr fits, range]

theorem vpUint16_large (platform : Platform) (wide : 32 ≤ platform.longBits) {value : Nat}
    (large : 2 ^ 16 ≤ value) : ∃ messages, vpUint16 platform (decimal value) = .error messages := by
  have range : 2 ^ 32 ≤ 2 ^ platform.longBits := Nat.pow_le_pow_right (by decide) wide
  have above : 0xFFFF < (strtoul platform (decimal value)).1 := by
    rw [strtoul_decimal]
    dsimp only
    split <;> omega
  exact ⟨_, if_pos above⟩

/-! ### Addresses -/

structure Ipv4 where
  a : UInt8
  b : UInt8
  c : UInt8
  d : UInt8
  deriving DecidableEq

namespace Ipv4

def text (address : Ipv4) : Bytes :=
  decimal address.a.toNat ++ 46 :: (decimal address.b.toNat ++ 46 :: (decimal address.c.toNat ++
    46 :: decimal address.d.toNat))

def value (address : Ipv4) : Nat :=
  address.a.toNat * 2 ^ 24 + address.b.toNat * 2 ^ 16 + address.c.toNat * 2 ^ 8 + address.d.toNat

theorem inetAton_text (address : Ipv4) : inetAton address.text = some address.value := by
  have point (rest : Bytes) : EndsNumber (46 :: rest) := by simp [EndsNumber]
  have nothing : EndsNumber [] := by simp [EndsNumber]
  have last : inetNumber (decimal address.d.toNat) = some (address.d.toNat, []) := by
    simpa using inetNumber_decimal address.d.toNat nothing
  have parts : inetParts 4 address.text =
      some ([address.a.toNat, address.b.toNat, address.c.toNat, address.d.toNat], []) := by
    simp [text, inetParts, inetNumber_decimal _ (point _), last]
  have octets := And.intro address.a.toNat_lt
    (And.intro address.b.toNat_lt (And.intro address.c.toNat_lt address.d.toNat_lt))
  simpa [inetAton, parts, value] using octets

theorem text_bytes (address : Ipv4) :
    ∀ byte ∈ address.text, (isdigit byte || byte == 46) = true := by
  have digits (value : Nat) (byte : UInt8) (member : byte ∈ decimal value) :
      (isdigit byte || byte == 46) = true := by
    simp [decimal_isdigit value byte member]
  intro byte member
  simp only [text, List.mem_append, List.mem_cons] at member
  rcases member with first | rfl | second | rfl | third | rfl | fourth
  · exact digits _ byte first
  · rfl
  · exact digits _ byte second
  · rfl
  · exact digits _ byte third
  · rfl
  · exact digits _ byte fourth

theorem text_ne_nil (address : Ipv4) : address.text ≠ [] := by
  simp [text]

theorem value_injective {first second : Ipv4} (same : first.value = second.value) :
    first = second := by
  have bounds := And.intro first.a.toNat_lt (And.intro first.b.toNat_lt
    (And.intro first.c.toNat_lt first.d.toNat_lt))
  have others := And.intro second.a.toNat_lt (And.intro second.b.toNat_lt
    (And.intro second.c.toNat_lt second.d.toNat_lt))
  simp only [value] at same
  cases first
  cases second
  simp only [mk.injEq, ← UInt8.toNat_inj] at bounds others same ⊢
  omega

end Ipv4

theorem vpInAddr_text (platform : Platform) (address : Ipv4) :
    vpInAddr platform address.text = .ok (.inAddr address.value) := by
  simp [vpInAddr, address.inetAton_text]

end ProxySet
