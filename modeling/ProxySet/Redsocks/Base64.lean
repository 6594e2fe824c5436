import ProxySet.Redsocks.HttpAuthCore

/-!
`base64.c`: what `base64_encode` writes, `base64_decode` reads.  The encoder keeps the
last six bits of a group of three bytes until it sees whether more bytes follow, which
gives the same digits as if it wrote them at once.
-/

namespace ProxySet

def base64Map : Bytes := [
  0x3e, 0xff, 0xff, 0xff, 0x3f, 0x34, 0x35, 0x36, 0x37, 0x38, 0x39, 0x3a, 0x3b, 0x3c, 0x3d, 0xff,
  0xff, 0xff, 0xff, 0xff, 0xff, 0xff, 0x00, 0x01, 0x02, 0x03, 0x04, 0x05, 0x06, 0x07, 0x08, 0x09,
  0x0a, 0x0b, 0x0c, 0x0d, 0x0e, 0x0f, 0x10, 0x11, 0x12, 0x13, 0x14, 0x15, 0x16, 0x17, 0x18, 0x19,
  0xff, 0xff, 0xff, 0xff, 0xff, 0xff, 0x1a, 0x1b, 0x1c, 0x1d, 0x1e, 0x1f, 0x20, 0x21, 0x22, 0x23,
  0x24, 0x25, 0x26, 0x27, 0x28, 0x29, 0x2a, 0x2b, 0x2c, 0x2d, 0x2e, 0x2f, 0x30, 0x31, 0x32, 0x33]

/-- The loop of `base64_decode`; the text ends with its terminator or in front of a `=`. -/
def base64DecodeLoop (outSize : Nat) : Nat → UInt32 → Bytes → Bytes → Option Bytes
  | _, _, out, [] => some out
  | i, v, out, byte :: rest =>
      if byte = 0 ∨ byte = 61 then some out
      else
        let index := (byte.toUInt32 - 43).toNat
        if base64Map.length ≤ index ∨ base64Map.getD index 0xff = 0xff then none
        else
          let next := (v <<< 6) + (base64Map.getD index 0xff).toUInt32
          let byteOut := (next >>> (6 - 2 * (i % 4)).toUInt32).toUInt8
          base64DecodeLoop outSize (i + 1) next
            (if i % 4 ≠ 0 ∧ out.length < outSize then out ++ [byteOut] else out) rest

def base64Decode (text : Bytes) (outSize : Nat) : Option Bytes :=
  base64DecodeLoop outSize 0 0 [] text

def base64Digit (value : Nat) : UInt8 :=
  base64Alphabet.getD value 0

/-- What the bytes of a text mean, in groups of three. -/
def base64Groups : Bytes → Bytes
  | a :: b :: c :: rest =>
      base64Digit (a.toNat / 4) :: base64Digit (a.toNat % 4 * 16 + b.toNat / 16) ::
        base64Digit (b.toNat % 16 * 4 + c.toNat / 64) :: base64Digit (c.toNat % 64) ::
          base64Groups rest
  | [a, b] =>
      [base64Digit (a.toNat / 4), base64Digit (a.toNat % 4 * 16 + b.toNat / 16),
        base64Digit (b.toNat % 16 * 4)]
  | [a] => [base64Digit (a.toNat / 4), base64Digit (a.toNat % 4 * 16)]
  | [] => []

section Encode

variable {bits : UInt32} {byte : UInt8} {rest : Bytes}

theorem toNat_six {shift : Nat} (even : shift ∈ [2, 4, 6, 8, 10, 12, 14]) (bits : UInt32) :
    (((bits <<< 6) >>> shift.toUInt32) &&& 0x3f).toNat = bits.toNat * 64 / 2 ^ shift % 64 := by
  have mask : (0x3f : UInt32).toNat = 2 ^ 6 - 1 := rfl
  have six : (6 : UInt32).toNat % 32 = 6 := rfl
  rw [UInt32.toNat_and, mask, Nat.and_two_pow_sub_one_eq_mod, UInt32.toNat_shiftRight,
    UInt32.toNat_shiftLeft, six, Nat.shiftRight_eq_div_pow, Nat.shiftLeft_eq, Nat.toUInt32_eq,
    UInt32.toNat_ofNat']
  simp only [List.mem_cons, List.not_mem_nil, or_false] at even
  rcases even with rfl | rfl | rfl | rfl | rfl | rfl | rfl
  all_goals
    simp only [Nat.reducePow, Nat.reduceMod]
    omega

theorem toNat_shifted (bits : UInt32) (byte : UInt8) :
    ((bits <<< 8) + byte.toUInt32).toNat = (bits.toNat * 256 + byte.toNat) % 2 ^ 32 := by
  have eight : (8 : UInt32).toNat % 32 = 8 := rfl
  rw [UInt32.toNat_add, UInt32.toNat_shiftLeft, eight, Nat.shiftLeft_eq, UInt8.toNat_toUInt32]
  omega

theorem base64Digits_succ {last : Bool} {fuel shift : Nat}
    (even : shift ∈ [2, 4, 6, 8, 10, 12, 14]) :
    base64Digits last bits (fuel + 1) shift =
      if 12 < shift ∨ last = true ∧ 6 < shift then
        (base64Digit (bits.toNat * 64 / 2 ^ shift % 64) ::
            (base64Digits last bits fuel (shift - 6 : Nat)).1,
          (base64Digits last bits fuel (shift - 6 : Nat)).2)
      else ([base64Digit (bits.toNat * 64 / 2 ^ shift % 64)], (shift : Int) - 6) := by
  have six := toNat_six even bits
  have several : 6 < (shift : Int) - 6 ↔ 12 < shift := by omega
  have waiting : 0 < (shift : Int) - 6 ↔ 6 < shift := by omega
  simp only [base64Digits, Int.toNat_natCast, six, several, waiting]
  split
  · next more =>
    have less : ((shift - 6 : Nat) : Int) = (shift : Int) - 6 := by omega
    rw [less]
    rfl
  · rfl

/-- The digit that a byte completes, and what it leaves for the next one. -/
theorem digit_value {waiting : Nat} (few : waiting ∈ [0, 2, 4]) :
    (bits.toNat * 256 + byte.toNat) % 2 ^ 32 * 64 / 2 ^ (waiting + 8) % 64 =
      bits.toNat % 2 ^ waiting * 2 ^ (6 - waiting) + byte.toNat / 2 ^ (waiting + 2) ∧
    (bits.toNat * 256 + byte.toNat) % 2 ^ 32 * 64 / 2 ^ (waiting + 2) % 64 =
      byte.toNat % 2 ^ (waiting + 2) * 2 ^ (4 - waiting) := by
  have bound := byte.toNat_lt
  simp only [List.mem_cons, List.not_mem_nil, or_false] at few
  rcases few with rfl | rfl | rfl
  all_goals
    simp only [Nat.reducePow, Nat.reduceAdd, Nat.reduceSub]
    omega

theorem base64Loop_more {waiting : Nat} (few : waiting ∈ [0, 2, 4]) (more : rest ≠ []) :
    base64Loop bits waiting (byte :: rest) =
      base64Digit (bits.toNat % 2 ^ waiting * 2 ^ (6 - waiting) + byte.toNat / 2 ^ (waiting + 2)) ::
        base64Loop ((bits <<< 8) + byte.toUInt32) (waiting + 2 : Nat) rest := by
  have value := (@digit_value bits byte waiting few).1
  have follows : rest.isEmpty = false := by simpa using more
  simp only [List.mem_cons, List.not_mem_nil, or_false] at few
  have digits := @base64Digits_succ ((bits <<< 8) + byte.toUInt32) false 2 (waiting + 8)
    (by simp; omega)
  rw [if_neg (by simp; omega), toNat_shifted, value] at digits
  have start : ((waiting : Nat) : Int) + 8 = ((waiting + 8 : Nat) : Int) := by omega
  have next : ((waiting + 8 : Nat) : Int) - 6 = ((waiting + 2 : Nat) : Int) := by omega
  rw [base64Loop, follows, start, digits, next]
  rfl

theorem base64Loop_last {waiting : Nat} (few : waiting ∈ [0, 2, 4]) :
    base64Loop bits waiting [byte] =
      [base64Digit (bits.toNat % 2 ^ waiting * 2 ^ (6 - waiting) + byte.toNat / 2 ^ (waiting + 2)),
        base64Digit (byte.toNat % 2 ^ (waiting + 2) * 2 ^ (4 - waiting))] := by
  obtain ⟨value, left⟩ := @digit_value bits byte waiting few
  simp only [List.mem_cons, List.not_mem_nil, or_false] at few
  have digits := @base64Digits_succ ((bits <<< 8) + byte.toUInt32) true 2 (waiting + 8)
    (by simp; omega)
  have final := @base64Digits_succ ((bits <<< 8) + byte.toUInt32) true 1 (waiting + 2)
    (by simp; omega)
  rw [if_neg (by simp; omega), toNat_shifted, left] at final
  rw [if_pos (by simp), toNat_shifted, value] at digits
  have start : ((waiting : Nat) : Int) + 8 = ((waiting + 8 : Nat) : Int) := by omega
  have next : waiting + 8 - 6 = waiting + 2 := by omega
  rw [base64Loop, List.isEmpty_nil, start, digits, next, final]
  rfl

theorem base64Loop_six (more : rest ≠ []) :
    base64Loop bits 6 rest = base64Digit (bits.toNat % 64) :: base64Loop bits 0 rest := by
  obtain ⟨byte, rest, rfl⟩ := List.exists_cons_of_ne_nil more
  have bound := byte.toNat_lt
  have value : (bits.toNat * 256 + byte.toNat) % 2 ^ 32 * 64 / 2 ^ 14 % 64 = bits.toNat % 64 := by
    omega
  have first := @base64Digits_succ ((bits <<< 8) + byte.toUInt32) rest.isEmpty 2 14 (by decide)
  rw [if_pos (by simp), toNat_shifted, value] at first
  have enough : base64Digits rest.isEmpty ((bits <<< 8) + byte.toUInt32) 2 (8 : Nat) =
      base64Digits rest.isEmpty ((bits <<< 8) + byte.toUInt32) 3 (8 : Nat) := by
    rw [@base64Digits_succ _ _ 1 8 (by decide), @base64Digits_succ _ _ 2 8 (by decide)]
    rw [@base64Digits_succ _ _ 0 2 (by decide), @base64Digits_succ _ _ 1 2 (by decide)]
    simp only [show ¬(12 < 2 ∨ rest.isEmpty = true ∧ 6 < 2) by omega, ↓reduceIte]
  rw [base64Loop, base64Loop]
  have six : (6 : Int) + 8 = (14 : Nat) := rfl
  have zero : (0 : Int) + 8 = (8 : Nat) := rfl
  rw [six, zero, first, ← enough]
  rfl

theorem toNat_shifted_mod {size : Nat} (small : size ∣ 256) (bits : UInt32) (byte : UInt8) :
    ((bits <<< 8) + byte.toUInt32).toNat % size = byte.toNat % size := by
  have whole : size ∣ 2 ^ 32 := Nat.dvd_trans small (by decide)
  rw [toNat_shifted, Nat.mod_mod_of_dvd _ whole, Nat.add_mod, Nat.mul_mod,
    Nat.mod_eq_zero_of_dvd small]
  simp

/-- The encoder's bits never reach behind a group. -/
theorem base64Loop_groups (bits : UInt32) (data : Bytes) :
    base64Loop bits 0 data = base64Groups data := by
  induction data using base64Groups.induct generalizing bits with
  | case1 a b c rest ih =>
      have first := @base64Loop_more bits a (b :: c :: rest) 0 (by decide) (by simp)
      have second := @base64Loop_more ((bits <<< 8) + a.toUInt32) b (c :: rest) 2 (by decide)
        (by simp)
      have later := toNat_shifted_mod (show 4 ∣ 256 by decide) bits a
      have latest := toNat_shifted_mod (show 16 ∣ 256 by decide) ((bits <<< 8) + a.toUInt32) b
      have rests := toNat_shifted_mod (show 64 ∣ 256 by decide)
        ((((bits <<< 8) + a.toUInt32) <<< 8) + b.toUInt32) c
      simp only [Int.cast_ofNat_Int, Nat.reduceAdd, Nat.reducePow, Nat.reduceSub,
        Nat.mod_one, Nat.zero_mul, Nat.zero_add] at first second
      rw [first, second, later]
      cases rest with
      | nil =>
          have third := @base64Loop_last ((((bits <<< 8) + a.toUInt32) <<< 8) + b.toUInt32) c 4
            (by decide)
          simp only [Int.cast_ofNat_Int, Nat.reduceAdd, Nat.reducePow, Nat.reduceSub, latest] at third
          rw [third]
          simp [base64Groups]
      | cons d rest =>
          have third := @base64Loop_more ((((bits <<< 8) + a.toUInt32) <<< 8) + b.toUInt32) c
            (d :: rest) 4 (by decide) (by simp)
          simp only [Int.cast_ofNat_Int, Nat.reduceAdd, Nat.reducePow, Nat.reduceSub, latest] at third
          rw [third, base64Loop_six (by simp), rests, ih]
          simp [base64Groups]
  | case2 a b =>
      have first := @base64Loop_more bits a [b] 0 (by decide) (by simp)
      have second := @base64Loop_last ((bits <<< 8) + a.toUInt32) b 2 (by decide)
      have later := toNat_shifted_mod (show 4 ∣ 256 by decide) bits a
      simp only [Int.cast_ofNat_Int, Nat.reduceAdd, Nat.reducePow, Nat.reduceSub,
        Nat.mod_one, Nat.zero_mul, Nat.zero_add] at first second
      rw [first, second, later]
      rfl
  | case3 a =>
      have only := @base64Loop_last bits a 0 (by decide)
      simp only [Int.cast_ofNat_Int, Nat.reducePow, Nat.reduceSub, Nat.mod_one, Nat.zero_mul,
        Nat.zero_add] at only
      exact only
  | case4 => rfl

end Encode

section Decode

variable {outSize index value : Nat} {v : UInt32} {done rest data : Bytes}

theorem base64Map_digit (value : Nat) (small : value < 64) :
    base64Digit value ≠ 0 ∧ base64Digit value ≠ 61 ∧
      ((base64Digit value).toUInt32 - 43).toNat < base64Map.length ∧
      base64Map.getD ((base64Digit value).toUInt32 - 43).toNat 0xff = value.toUInt8 ∧
      value.toUInt8 ≠ 0xff := by
  revert value
  decide +kernel

theorem decode_digit (small : value < 64) :
    base64DecodeLoop outSize index v done (base64Digit value :: rest) =
      base64DecodeLoop outSize (index + 1) ((v <<< 6) + value.toUInt8.toUInt32)
        (if index % 4 ≠ 0 ∧ done.length < outSize then
          done ++ [(((v <<< 6) + value.toUInt8.toUInt32) >>>
            (6 - 2 * (index % 4)).toUInt32).toUInt8] else done) rest := by
  obtain ⟨filled, unpadded, known, found, valid⟩ := base64Map_digit value small
  rw [base64DecodeLoop, if_neg (by simp [filled, unpadded])]
  dsimp only
  rw [found, if_neg (by simp only [not_or]; exact ⟨by omega, valid⟩)]

theorem toNat_next (v : UInt32) (small : value < 64) :
    ((v <<< 6) + value.toUInt8.toUInt32).toNat = (v.toNat * 64 + value) % 2 ^ 32 := by
  have six : (6 : UInt32).toNat % 32 = 6 := rfl
  rw [UInt32.toNat_add, UInt32.toNat_shiftLeft, six, Nat.shiftLeft_eq, UInt8.toNat_toUInt32,
    Nat.toUInt8_eq, UInt8.toNat_ofNat']
  omega

theorem take_store_byte (done : Bytes) (byte : UInt8) (outSize : Nat) :
    (if (done.take outSize).length < outSize then done.take outSize ++ [byte]
      else done.take outSize) = (done ++ [byte]).take outSize := by
  split
  · next room =>
    have short : done.length < outSize := by
      rw [List.length_take] at room
      omega
    rw [List.take_of_length_le (Nat.le_of_lt short), List.take_of_length_le (by simp; omega)]
  · next full =>
    have long : outSize ≤ done.length := by
      rw [List.length_take] at full
      omega
    rw [List.take_append_of_le_length long]

theorem decode_first (first : index % 4 = 0) (small : value < 64) :
    base64DecodeLoop outSize index v done (base64Digit value :: rest) =
      base64DecodeLoop outSize (index + 1) ((v <<< 6) + value.toUInt8.toUInt32) done rest := by
  rw [decode_digit small, if_neg (by simp [first])]

theorem decode_later (byte : UInt8) (step : Nat) {front : Nat} (later : index % 4 = step)
    (among : step ∈ [1, 2, 3]) (before : front < 64) (small : value < 64)
    (completes : (front * 64 + value) / 2 ^ (6 - 2 * step) % 256 = byte.toNat) :
    base64DecodeLoop outSize index ((v <<< 6) + front.toUInt8.toUInt32) (done.take outSize)
        (base64Digit value :: rest) =
      base64DecodeLoop outSize (index + 1)
        ((((v <<< 6) + front.toUInt8.toUInt32) <<< 6) + value.toUInt8.toUInt32)
        ((done ++ [byte]).take outSize) rest := by
  simp only [List.mem_cons, List.not_mem_nil, or_false] at among
  have same : (((((v <<< 6) + front.toUInt8.toUInt32) <<< 6) + value.toUInt8.toUInt32) >>>
      (6 - 2 * step).toUInt32).toUInt8 = byte := by
    apply UInt8.toNat.inj
    rw [UInt32.toNat_toUInt8, UInt32.toNat_shiftRight, toNat_next _ small, toNat_next v before,
      Nat.shiftRight_eq_div_pow, ← completes, Nat.toUInt32_eq, UInt32.toNat_ofNat']
    rcases among with rfl | rfl | rfl
    all_goals
      simp only [Nat.reduceMul, Nat.reduceSub, Nat.reducePow, Nat.reduceMod]
      omega
  have counted : index % 4 ≠ 0 := by omega
  rw [decode_digit small, later, same]
  simp only [show step ≠ 0 by omega, ne_eq, not_false_eq_true, true_and, take_store_byte]

/-- The decoder gives back the bytes of the groups, whatever it has read in front of them. -/
theorem decode_groups (first : index % 4 = 0) (padding : Nat) :
    base64DecodeLoop outSize index v (done.take outSize)
        (base64Groups data ++ List.replicate padding 61) =
      some ((done ++ data).take outSize) := by
  have ends : ∀ index v out,
      base64DecodeLoop outSize index v out (List.replicate padding 61) = some out := by
    intro index v out
    cases padding with
    | zero => rfl
    | succ padding => rw [List.replicate_succ, base64DecodeLoop, if_pos (by simp)]
  induction data using base64Groups.induct generalizing index v done with
  | case1 a b c rest ih =>
      have aBound := a.toNat_lt
      have bBound := b.toNat_lt
      have cBound := c.toNat_lt
      simp only [base64Groups, List.cons_append]
      rw [decode_first first (by omega),
        decode_later a 1 (by omega) (by decide) (by omega) (by omega) (by omega),
        decode_later b 2 (by omega) (by decide) (by omega) (by omega) (by omega),
        decode_later c 3 (by omega) (by decide) (by omega) (by omega) (by omega), ih (by omega)]
      simp
  | case2 a b =>
      have aBound := a.toNat_lt
      have bBound := b.toNat_lt
      simp only [base64Groups, List.cons_append, List.nil_append]
      rw [decode_first first (by omega),
        decode_later a 1 (by omega) (by decide) (by omega) (by omega) (by omega),
        decode_later b 2 (by omega) (by decide) (by omega) (by omega) (by omega), ends]
      simp
  | case3 a =>
      have aBound := a.toNat_lt
      simp only [base64Groups, List.cons_append, List.nil_append]
      rw [decode_first first (by omega),
        decode_later a 1 (by omega) (by decide) (by omega) (by omega) (by omega), ends]
  | case4 => simp only [base64Groups, List.nil_append, List.append_nil, ends]

/-- `BASE64_SIZE` without the terminator. -/
theorem length_base64Groups (data : Bytes) :
    (base64Groups data).length + (4 - (base64Groups data).length % 4) % 4 =
      (data.length + 2) / 3 * 4 := by
  have sizes : (base64Groups data).length = data.length / 3 * 4 +
      if data.length % 3 = 0 then 0 else data.length % 3 + 1 := by
    induction data using base64Groups.induct with
    | case1 a b c rest ih =>
        simp only [base64Groups, List.length_cons, ih]
        split
        · split <;> omega
        · split <;> omega
    | case2 a b => simp [base64Groups]
    | case3 a => simp [base64Groups]
    | case4 => rfl
  rw [sizes]
  split <;> omega

/-- What is encoded fills exactly the room that `BASE64_SIZE` reserves, and is decoded again as far
as there is room for it. -/
theorem base64_round_trip (data : Bytes) (outSize : Nat)
    (short : data.length < (2 ^ 32 - 1) / 4) :
    ∃ text, base64Encode data = some text ∧ text.length = (data.length + 2) / 3 * 4 ∧
      base64Decode text outSize = some (data.take outSize) := by
  refine ⟨base64Groups data ++
    List.replicate ((4 - (base64Groups data).length % 4) % 4) 61, ?_, ?_, ?_⟩
  · rw [base64Encode, if_neg (by omega), base64Loop_groups]
  · rw [List.length_append, List.length_replicate, length_base64Groups]
  · have decoded := @decode_groups outSize 0 0 [] data rfl
      ((4 - (base64Groups data).length % 4) % 4)
    simpa [base64Decode] using decoded

theorem base64_round_trip_pair :
    ([117, 115, 101, 114] : Bytes).length < (2 ^ 32 - 1) / 4 ∧
      ∃ text, base64Encode [117, 115, 101, 114] = some text ∧
        text.length = (([117, 115, 101, 114] : Bytes).length + 2) / 3 * 4 ∧
        base64Decode text 64 = some (([117, 115, 101, 114] : Bytes).take 64) := by
  have short : ([117, 115, 101, 114] : Bytes).length < (2 ^ 32 - 1) / 4 := by decide
  exact ⟨short, base64_round_trip _ 64 short⟩

end Decode

end ProxySet
