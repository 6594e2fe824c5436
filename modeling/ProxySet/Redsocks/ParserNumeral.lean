import ProxySet.Redsocks.ConfigCore
import ProxySet.Redsocks.Numbers

/-!
Integer settings: the numerals that `strtoul` reads with base 0, and the tokens that `vp_uint16`
takes though they are none.
-/

namespace ProxySet

/-! ### Numerals -/

/-- An unsigned numeral, as `strtoul` takes one with base 0, and its value. -/
inductive Numeral : Bytes → Nat → Prop
  | decimal {digits : Bytes} : digits ≠ [] → digits.head? ≠ some 48 →
      (∀ digit ∈ digits, digitValue digit < 10) → Numeral digits (valueIn 10 digits)
  | octal {digits : Bytes} : (∀ digit ∈ digits, digitValue digit < 8) →
      Numeral (48 :: digits) (valueIn 8 digits)
  | hex {mark : UInt8} {digits : Bytes} : mark = 120 ∨ mark = 88 → digits ≠ [] →
      (∀ digit ∈ digits, digitValue digit < 16) →
      Numeral (48 :: mark :: digits) (valueIn 16 digits)

def unsignedPart (text : Bytes) : Bytes :=
  let start := text.dropWhile isspace
  if start.head? = some 45 ∨ start.head? = some 43 then start.drop 1 else start

def isNegative (text : Bytes) : Bool :=
  (text.dropWhile isspace).head? = some 45

/-- The value of a numeral as an `unsigned long`: it saturates, and a minus is taken modulo. -/
def converted (bits : Nat) (negative : Bool) (value : Nat) : Nat :=
  if 2 ^ bits ≤ value then 2 ^ bits - 1
  else if negative then (2 ^ bits - value) % 2 ^ bits
  else value

section

variable {platform : Platform} {text digits : Bytes} {value : Nat}

theorem strtoul_eq (platform : Platform) (text : Bytes) :
    strtoul platform text =
      let number := numberBase (unsignedPart text)
      let digits := digitsIn number.1 number.2
      if digits.isEmpty then (0, text)
      else (converted platform.longBits (isNegative text) (valueIn number.1 digits),
        number.2.drop digits.length) := by
  simp [strtoul, unsignedPart, isNegative, converted]

theorem digitsIn_all {base : Nat} (inside : ∀ digit ∈ digits, digitValue digit < base) :
    digitsIn base digits = digits :=
  List.takeWhile_eq_self_iff.mpr fun digit member => decide_eq_true (inside digit member)

theorem drop_digitsIn (base : Nat) (text : Bytes) :
    text.drop (digitsIn base text).length = text.dropWhile fun digit => decide (digitValue digit < base) := by
  have split := List.takeWhile_append_dropWhile (p := fun digit => decide (digitValue digit < base))
    (l := text)
  have dropped : (digitsIn base text ++ text.dropWhile fun digit =>
      decide (digitValue digit < base)).drop (digitsIn base text).length = _ := List.drop_left
  rwa [digitsIn, split, ← digitsIn] at dropped

theorem drop_digitsIn_eq_nil {base : Nat} :
    text.drop (digitsIn base text).length = [] ↔ ∀ digit ∈ text, digitValue digit < base := by
  rw [drop_digitsIn, List.dropWhile_eq_nil_iff]
  simp

theorem valueIn_zero (base : Nat) (digits : Bytes) :
    valueIn base (48 :: digits) = valueIn base digits := by
  have zero : digitValue 48 = 0 := by decide
  simp [valueIn, zero]

theorem numberBase_hex {mark digit : UInt8} {rest : Bytes} (marked : mark = 120 ∨ mark = 88)
    (first : digitValue digit < 16) :
    numberBase (48 :: mark :: digit :: rest) = (16, digit :: rest) :=
  if_pos ⟨marked, first⟩

theorem numberBase_octal {rest : Bytes}
    (plain : ∀ mark digit behind, rest = mark :: digit :: behind →
      ¬((mark = 120 ∨ mark = 88) ∧ digitValue digit < 16)) :
    numberBase (48 :: rest) = (8, 48 :: rest) := by
  match rest with
  | [] => rfl
  | [mark] => rfl
  | mark :: digit :: behind => exact if_neg (plain mark digit behind rfl)

theorem numberBase_decimalText {first : UInt8} {rest : Bytes} (notZero : first ≠ 48) :
    numberBase (first :: rest) = (10, first :: rest) := by
  unfold numberBase
  split
  · simp_all
  · simp_all
  · rfl

def ReadWhole (number : Nat × Bytes) (value : Nat) : Prop :=
  (digitsIn number.1 number.2).isEmpty = false ∧
    number.2.drop (digitsIn number.1 number.2).length = [] ∧
    valueIn number.1 (digitsIn number.1 number.2) = value

theorem readWhole_iff {base : Nat} : ReadWhole (base, text) value ↔
    text ≠ [] ∧ (∀ digit ∈ text, digitValue digit < base) ∧ valueIn base text = value := by
  unfold ReadWhole
  rw [drop_digitsIn_eq_nil]
  constructor
  · rintro ⟨nonempty, inside, known⟩
    rw [digitsIn_all inside] at nonempty known
    exact ⟨by simpa using nonempty, inside, known⟩
  · rintro ⟨nonempty, inside, known⟩
    rw [digitsIn_all inside]
    exact ⟨by simpa using nonempty, inside, known⟩

theorem Numeral.readWhole (numeral : Numeral text value) :
    ReadWhole (numberBase text) value := by
  cases numeral with
  | decimal nonempty notZero inside =>
      cases text with
      | nil => exact absurd rfl nonempty
      | cons first rest =>
          rw [numberBase_decimalText (by simpa using notZero)]
          exact readWhole_iff.mpr ⟨nonempty, inside, rfl⟩
  | @octal digits inside =>
      rw [numberBase_octal, readWhole_iff]
      · refine ⟨List.cons_ne_nil _ _, ?_, valueIn_zero 8 digits⟩
        exact List.forall_mem_cons.mpr ⟨by decide, inside⟩
      · rintro mark digit behind rfl ⟨marked, -⟩
        have small := inside mark List.mem_cons_self
        rcases marked with rfl | rfl
        · exact absurd small (by decide)
        · exact absurd small (by decide)
  | @hex mark digits marked nonempty inside =>
      cases digits with
      | nil => exact absurd rfl nonempty
      | cons digit behind =>
          rw [numberBase_hex marked (inside digit List.mem_cons_self)]
          exact readWhole_iff.mpr ⟨nonempty, inside, rfl⟩

theorem numeral_of_readWhole (whole : ReadWhole (numberBase text) value) : Numeral text value := by
  cases text with
  | nil => exact absurd whole.1 (by decide)
  | cons first rest =>
      by_cases zero : first = 48
      · subst zero
        by_cases marked : ∃ mark digit behind, rest = mark :: digit :: behind ∧
            (mark = 120 ∨ mark = 88) ∧ digitValue digit < 16
        · obtain ⟨mark, digit, behind, rfl, marked, small⟩ := marked
          rw [numberBase_hex marked small, readWhole_iff] at whole
          obtain ⟨nonempty, inside, rfl⟩ := whole
          exact .hex marked nonempty inside
        · have plain : ∀ mark digit behind, rest = mark :: digit :: behind →
              ¬((mark = 120 ∨ mark = 88) ∧ digitValue digit < 16) :=
            fun mark digit behind same both => marked ⟨mark, digit, behind, same, both⟩
          rw [numberBase_octal plain, readWhole_iff] at whole
          obtain ⟨-, inside, rfl⟩ := whole
          rw [valueIn_zero]
          exact .octal fun digit member => inside digit (List.mem_cons_of_mem _ member)
      · rw [numberBase_decimalText zero, readWhole_iff] at whole
        obtain ⟨nonempty, inside, rfl⟩ := whole
        exact .decimal nonempty (by simpa using zero) inside

theorem Numeral.unsigned (numeral : Numeral text value) :
    unsignedPart text = text ∧ isNegative text = false := by
  have first : ∃ byte rest, text = byte :: rest ∧ digitValue byte < 10 := by
    cases numeral with
    | decimal nonempty _ inside =>
        cases text with
        | nil => exact absurd rfl nonempty
        | cons byte rest => exact ⟨byte, rest, rfl, inside byte List.mem_cons_self⟩
    | octal _ => exact ⟨_, _, rfl, by decide⟩
    | hex _ _ _ => exact ⟨_, _, rfl, by decide⟩
  obtain ⟨byte, rest, rfl, digit⟩ := first
  have checked := forall_byte (fun byte => !decide (digitValue byte < 10) ||
    (!isspace byte && byte != 45 && byte != 43)) (by decide +kernel) byte
  simp only [digit, decide_true, Bool.not_true, Bool.false_or, Bool.and_eq_true,
    Bool.not_eq_true', bne_iff_ne] at checked
  simp [unsignedPart, isNegative, checked]

/-! ### What `vp_uint16` takes -/

theorem strtoul_numeral (numeral : Numeral (unsignedPart text) value) :
    strtoul platform text = (converted platform.longBits (isNegative text) value, []) := by
  obtain ⟨nonempty, ended, known⟩ := numeral.readWhole
  rw [strtoul_eq]
  simp only [nonempty, Bool.false_eq_true, ↓reduceIte, ended, known]

theorem numeral_of_strtoul (ended : (strtoul platform text).2 = []) :
    text = [] ∨ ∃ value, Numeral (unsignedPart text) value := by
  rw [strtoul_eq] at ended
  cases nonempty : (digitsIn (numberBase (unsignedPart text)).1
      (numberBase (unsignedPart text)).2).isEmpty with
  | true => exact .inl (by simpa [nonempty] using ended)
  | false =>
      simp only [nonempty, Bool.false_eq_true, ↓reduceIte] at ended
      exact .inr ⟨_, numeral_of_readWhole ⟨nonempty, ended, rfl⟩⟩

/-- The empty token counts as 0; else a numeral may have white space and a sign in front. -/
theorem vpUint16_ok_iff : vpUint16 platform text = .ok (.uint16 value) ↔
    value ≤ 0xFFFF ∧ (text = [] ∧ value = 0 ∨ ∃ number, Numeral (unsignedPart text) number ∧
      converted platform.longBits (isNegative text) number = value) := by
  unfold vpUint16
  constructor
  · intro ok
    by_cases large : 0xFFFF < (strtoul platform text).1
    · simp [large] at ok
    · by_cases more : (strtoul platform text).2 ≠ []
      · simp [large, more] at ok
      · simp only [large, more, ↓reduceIte, Except.ok.injEq, ParserValue.uint16.injEq] at ok
        refine ⟨by omega, ?_⟩
        rcases numeral_of_strtoul (not_not.mp more) with rfl | ⟨number, numeral⟩
        · exact .inl ⟨rfl, ok.symm⟩
        · rw [strtoul_numeral numeral] at ok
          exact .inr ⟨number, numeral, ok⟩
  · rintro ⟨small, ⟨rfl, rfl⟩ | ⟨number, numeral, rfl⟩⟩
    · rfl
    · simp [strtoul_numeral numeral, Nat.not_lt.mpr small]

theorem vpUint16_result (platform : Platform) (text : Bytes) :
    (∃ value, vpUint16 platform text = .ok (.uint16 value)) ∨
      ∃ message, vpUint16 platform text = .error [message] := by
  unfold vpUint16
  by_cases large : 0xFFFF < (strtoul platform text).1
  · exact .inr ⟨_, if_pos large⟩
  · by_cases more : (strtoul platform text).2 ≠ []
    · exact .inr ⟨_, (if_neg large).trans (if_pos more)⟩
    · exact .inl ⟨_, (if_neg large).trans (if_neg more)⟩

theorem converted_iff (bits : Nat) (wide : 16 < bits) {number : Nat} :
    converted bits false number = value ∧ value ≤ 0xFFFF ↔ number = value ∧ value ≤ 0xFFFF := by
  have range : 2 ^ 17 ≤ 2 ^ bits := Nat.pow_le_pow_right (by decide) wide
  simp only [converted, Bool.false_eq_true, ↓reduceIte]
  by_cases saturated : 2 ^ bits ≤ number
  · rw [if_pos saturated]
    omega
  · rw [if_neg saturated]

end

/-! ### Settings -/

variable {Memory : Type}

/-- After the assignment the setting holds the value of a numeral of 16 bits; any other token has
been reported and leaves the setting. -/
def StoredExactly (platform : Platform) (vars : ParserVars Memory) (current : ParserSection Memory)
    (entry : ParserEntry Memory) (key token : Bytes) : Prop :=
  let result := vars.assign platform current key token
  (∀ value, vpUint16 platform token = .ok (.uint16 value) ↔ Numeral token value ∧ value ≤ 0xFFFF) ∧
    (∀ value, Numeral token value → value ≤ 0xFFFF →
      result.memory = entry.store (.uint16 value) vars.memory ∧ result.errors = vars.errors) ∧
    ((∀ value, Numeral token value → 0xFFFF < value) →
      result.memory = vars.memory ∧ ∃ messages, messages ≠ [] ∧
        result.errors = vars.errors ++ messages)

/-- The empty token, and a numeral behind white space or a sign whose conversion has 16 bits. -/
def Misread (bits : Nat) (token : Bytes) : Prop :=
  token = [] ∨ unsignedPart token ≠ token ∧ ∃ number < 2 ^ bits,
    Numeral (unsignedPart token) number ∧ converted bits (isNegative token) number ≤ 0xFFFF

section

variable {platform : Platform} {vars : ParserVars Memory} {current : ParserSection Memory}
  {entry : ParserEntry Memory} {key token : Bytes}

theorem vpUint16_of_not_misread (wide : 16 < platform.longBits)
    (clear : ¬Misread platform.longBits token) (value : Nat) :
    vpUint16 platform token = .ok (.uint16 value) ↔ Numeral token value ∧ value ≤ 0xFFFF := by
  have range : 2 ^ 17 ≤ 2 ^ platform.longBits := Nat.pow_le_pow_right (by decide) wide
  rw [vpUint16_ok_iff]
  constructor
  · rintro ⟨small, ⟨empty, -⟩ | ⟨number, numeral, known⟩⟩
    · exact absurd (.inl empty) clear
    · by_cases same : unsignedPart token = token
      · rw [same] at numeral
        rw [numeral.unsigned.2] at known
        obtain ⟨rfl, -⟩ := (converted_iff platform.longBits wide).mp ⟨known, small⟩
        exact ⟨numeral, small⟩
      · have inside : number < 2 ^ platform.longBits := by
          by_contra saturated
          rw [converted, if_pos (Nat.not_lt.mp saturated)] at known
          omega
        exact absurd (.inr ⟨same, number, inside, numeral, known ▸ small⟩) clear
  · rintro ⟨numeral, small⟩
    refine ⟨small, .inr ⟨value, numeral.unsigned.1.symm ▸ numeral, ?_⟩⟩
    rw [numeral.unsigned.2]
    exact ((converted_iff platform.longBits wide).mpr ⟨rfl, small⟩).1

theorem misread_taken (misread : Misread platform.longBits token) :
    (∃ value, vpUint16 platform token = .ok (.uint16 value)) ∧ ∀ value, ¬Numeral token value := by
  rcases misread with rfl | ⟨other, number, -, numeral, small⟩
  · refine ⟨⟨0, rfl⟩, fun value numeral => ?_⟩
    exact absurd numeral.readWhole.1 (by decide)
  · exact ⟨⟨_, vpUint16_ok_iff.mpr ⟨small, .inr ⟨number, numeral, rfl⟩⟩⟩,
      fun value numeral => other numeral.unsigned.1⟩

theorem assign_ok (found : current.entries.find? (·.key == key) = some entry)
    (typed : entry.type = .uint16) {value : Nat}
    (ok : vpUint16 platform token = .ok (.uint16 value)) :
    (vars.assign platform current key token).memory = entry.store (.uint16 value) vars.memory ∧
      (vars.assign platform current key token).errors = vars.errors := by
  simp [ParserVars.assign, found, typed, valueParserByType, ok]

theorem assign_error (found : current.entries.find? (·.key == key) = some entry)
    (typed : entry.type = .uint16) {message : Bytes}
    (refused : vpUint16 platform token = .error [message]) :
    (vars.assign platform current key token).memory = vars.memory ∧
      (vars.assign platform current key token).errors =
        vars.errors ++ [message, ascii "value can't be parsed"] := by
  simp [ParserVars.assign, found, typed, valueParserByType, refused]

/-- Integer settings are parsed exactly but for the tokens that are misread. -/
theorem storedExactly_iff (word : platform.longBits = 32 ∨ platform.longBits = 64)
    (found : current.entries.find? (·.key == key) = some entry) (typed : entry.type = .uint16) :
    StoredExactly platform vars current entry key token ↔ ¬Misread platform.longBits token := by
  have wide : 16 < platform.longBits := by omega
  constructor
  · rintro ⟨exactly, -, -⟩ misread
    obtain ⟨⟨value, ok⟩, none⟩ := misread_taken misread
    exact none value ((exactly value).mp ok).1
  · intro clear
    have exactly := vpUint16_of_not_misread wide clear
    refine ⟨exactly, fun value numeral small => ?_, fun large => ?_⟩
    · exact assign_ok found typed ((exactly value).mpr ⟨numeral, small⟩)
    · rcases vpUint16_result platform token with ⟨value, ok⟩ | ⟨message, refused⟩
      · obtain ⟨numeral, small⟩ := (exactly value).mp ok
        exact absurd (large value numeral) (Nat.not_lt.mpr small)
      · obtain ⟨memory, errors⟩ : _ ∧ (vars.assign platform current key token).errors = _ :=
          assign_error found typed refused
        exact ⟨memory, _, List.cons_ne_nil _ _, errors⟩

end

theorem empty_string_stored_as_zero :
    gettoken (ascii "\"\";") = .token .cstr [] (ascii ";") ∧
      ∃ entry, redsocksSection.entries.find? (·.key == ascii "listenq") = some entry ∧
        entry.type = .uint16 ∧
        ¬StoredExactly { longBits := 64, resolve := fun _ => .error [] }
          (ParserVars.start ConfigMemory.start) redsocksSection entry (ascii "listenq") [] := by
  refine ⟨by decide +kernel, _, rfl, rfl, ?_⟩
  rintro ⟨exactly, -, -⟩
  exact absurd ((exactly 0).mp rfl).1.readWhole.1 (by decide)

theorem listenq_stored_iff :
    ∃ entry, redsocksSection.entries.find? (·.key == ascii "listenq") = some entry ∧
      entry.type = .uint16 ∧
      (StoredExactly { longBits := 64, resolve := fun _ => .error [] }
          (ParserVars.start ConfigMemory.start) redsocksSection entry (ascii "listenq")
          (ascii "0x1F") ↔ ¬Misread 64 (ascii "0x1F")) :=
  ⟨_, rfl, rfl, storedExactly_iff (.inr rfl) rfl rfl⟩

/-- A minus wraps around the range of `unsigned long`. -/
example : vpUint16 { longBits := 64, resolve := fun _ => .error [] }
    (ascii "-18446744073709551615") = .ok (.uint16 1) := by decide +kernel

end ProxySet
