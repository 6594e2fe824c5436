import ProxySet.Lib.BlockStream
import ProxySet.Redsocks.HttpAuthCore

/-!
`md5.c` as it is called: a message is appended in pieces, and blocks of 64 bytes are
processed as they fill up.  `http-auth.c` passes a name, a colon and a password one
after the other, which gives the digest of the three together.
-/

namespace ProxySet

open BlockStream

structure Md5Stream where
  count0 : UInt32
  count1 : UInt32
  abcd : Md5State
  buf : Bytes
deriving DecidableEq, Repr

def md5Start : Md5State :=
  { a := 0x67452301, b := 0xefcdab89, c := 0x98badcfe, d := 0x10325476 }

def md5Block (state : Md5State) (block : Bytes) : Md5State :=
  md5Process state (md5Words 16 block)

/-- `md5_init` leaves the block as it finds it. -/
def md5Init (buf : Bytes) : Md5Stream :=
  { count0 := 0, count1 := 0, abcd := md5Start, buf := buf }

def Md5Stream.offset (stream : Md5Stream) : Nat :=
  ((stream.count0 >>> 3) &&& 63).toNat

def Md5Stream.store (stream : Md5Stream) (offset : Nat) (data : Bytes) : Md5Stream :=
  { stream with
    buf := stream.buf.take offset ++ data ++ stream.buf.drop (offset + data.length) }

def md5Full : Nat → Md5Stream → Bytes → Md5Stream
  | fuel + 1, stream, data =>
      if 64 ≤ data.length then
        md5Full fuel { stream with abcd := md5Block stream.abcd (data.take 64) } (data.drop 64)
      else stream.store 0 data
  | 0, stream, data => stream.store 0 data

/-- The sum of `offset` and `nbytes` is an `int`.  There is no result where it wraps, since the bytes
are then written behind the block. -/
def md5Append (stream : Md5Stream) (start : Bytes) (nbytes : Int) : Option Md5Stream :=
  if nbytes ≤ 0 then some stream
  else
    let data := start.take nbytes.toNat
    let nbits := (data.length * 8).toUInt32
    let count0 := stream.count0 + nbits
    let counted := { stream with
      count0 := count0
      count1 := stream.count1 + (data.length / 2 ^ 29).toUInt32 + if count0 < nbits then 1 else 0 }
    if stream.offset ≠ 0 then
      let copy := if 64 < cInt (stream.offset + nbytes) then 64 - stream.offset else data.length
      let filled := counted.store stream.offset (data.take copy)
      if 64 < stream.offset + copy then none
      else if stream.offset + copy < 64 then some filled
      else
        some (md5Full data.length { filled with abcd := md5Block filled.abcd filled.buf }
          (data.drop copy))
    else some (md5Full data.length counted data)

/-- The calls of `http-auth.c` pass `strlen` as an `int`. -/
def md5AppendText (stream : Md5Stream) (text : Bytes) : Option Md5Stream :=
  md5Append stream text (cInt text.length)

def md5PadBytes : Bytes := 0x80 :: List.replicate 63 0

def Md5Stream.padding (stream : Md5Stream) : Nat :=
  (((55 : UInt32) - (stream.count0 >>> 3)) &&& 63).toNat + 1

def Md5State.digest (state : Md5State) : Bytes :=
  littleEndian state.a ++ littleEndian state.b ++ littleEndian state.c ++ littleEndian state.d

def md5Finish (stream : Md5Stream) : Option Bytes := do
  let data := littleEndian stream.count0 ++ littleEndian stream.count1
  let padded ← md5Append stream md5PadBytes stream.padding
  let final ← md5Append padded data 8
  return final.abcd.digest

section Blocks

variable {state : Md5State} {text block rest : Bytes} {held : Held Md5State UInt8}

theorem md5Words_append (fuel : Nat) (rest : Bytes) :
    ∀ {count : Nat} {block : Bytes}, block.length = 4 * count →
      md5Words (count + fuel) (block ++ rest) = md5Words count block ++ md5Words fuel rest
  | 0, block, full => by
      obtain rfl := List.length_eq_zero_iff.mp full
      simp [md5Words]
  | count + 1, block, full => by
      match block, full with
      | b0 :: b1 :: b2 :: b3 :: block, full =>
          have later : block.length = 4 * count := by
            simp only [List.length_cons] at full
            omega
          rw [show count + 1 + fuel = (count + fuel) + 1 by omega]
          simp only [List.cons_append, md5Words, md5Words_append fuel rest later]

theorem length_md5Words : ∀ {count : Nat} {block : Bytes}, block.length = 4 * count →
    (md5Words count block).length = count
  | 0, _, _ => by simp [md5Words]
  | count + 1, block, full => by
      match block, full with
      | b0 :: b1 :: b2 :: b3 :: block, full =>
          have later : block.length = 4 * count := by
            simp only [List.length_cons] at full
            omega
          simp only [md5Words, List.length_cons, length_md5Words later]

theorem md5Blocks_cons (fuel : Nat) (word : UInt32) (words : List UInt32) :
    md5Blocks (fuel + 1) (word :: words) state =
      md5Blocks fuel ((word :: words).drop 16) (md5Process state ((word :: words).take 16)) := by
  -- The processing is set aside, since both sides would be evaluated through its 64 steps.
  delta md5Blocks md5Blocks._f
  generalize md5Process = process
  rfl

theorem md5Blocks_append {words : List UInt32} (fuel : Nat) (full : words.length = 16)
    (more : List UInt32) :
    md5Blocks (fuel + 1) (words ++ more) state = md5Blocks fuel more (md5Process state words) := by
  match words, full with
  | word :: words, full =>
      rw [List.cons_append, md5Blocks_cons, ← List.cons_append, ← full, List.drop_left,
        List.take_left]

theorem md5Blocks_eq {count fuel words : Nat} (blocks : text.length = 64 * count)
    (enough : count ≤ fuel) (enoughWords : 16 * count ≤ words) :
    md5Blocks fuel (md5Words words text) state =
      (feed 64 md5Block { state := state, rest := [] } text).state := by
  induction count generalizing state text fuel words with
  | zero =>
      obtain rfl := List.length_eq_zero_iff.mp blocks
      cases fuel <;> cases words <;> rfl
  | succ count ih =>
      obtain ⟨fuel, rfl⟩ := Nat.exists_eq_add_of_le' (show 1 ≤ fuel by omega)
      obtain ⟨words, rfl⟩ := Nat.exists_eq_add_of_le (show 16 ≤ words by omega)
      have front : (text.take 64).length = 64 := List.length_take_of_le (by omega)
      have rest : (text.drop 64).length = 64 * count := by
        rw [List.length_drop]
        omega
      have block := @feed_block _ _ 64 md5Block { state := state, rest := [] } (text.take 64)
        (by intro none; simp [none] at front) (by simp [front])
      conv_lhs => rw [← List.take_append_drop 64 text, md5Words_append words _ front]
      conv_rhs => rw [← List.take_append_drop 64 text, feed_append, block]
      rw [md5Blocks_append fuel (length_md5Words front), ih rest (by omega) (by omega)]
      rfl

end Blocks

section Append

variable {stream : Md5Stream} {message data : Bytes} {fuel : Nat}

def md5Fed (message : Bytes) : Held Md5State UInt8 :=
  feed 64 md5Block { state := md5Start, rest := [] } message

theorem length_md5Fed (message : Bytes) : (md5Fed message).rest.length = message.length % 64 := by
  rw [md5Fed, length_feed (by simp), List.length_nil, Nat.zero_add]

/-- The state of `md5.c` after a message; what is left of the block has no meaning. -/
structure Md5Holds (stream : Md5Stream) (message : Bytes) : Prop where
  count : stream.count0.toNat + 2 ^ 32 * stream.count1.toNat = 8 * message.length % 2 ^ 64
  room : stream.buf.length = 64
  state : stream.abcd = (md5Fed message).state
  rest : stream.buf.take (message.length % 64) = (md5Fed message).rest

theorem toNat_word (word : UInt32) : ((word >>> 3) &&& 63).toNat = word.toNat / 8 % 64 := by
  rw [UInt32.toNat_and, UInt32.toNat_shiftRight]
  have mask : (63 : UInt32).toNat = 2 ^ 6 - 1 := rfl
  rw [mask, Nat.and_two_pow_sub_one_eq_mod, Nat.shiftRight_eq_div_pow]
  rfl

theorem Md5Holds.offset (holds : Md5Holds stream message) :
    stream.offset = message.length % 64 := by
  have count := holds.count
  rw [Md5Stream.offset, toNat_word]
  omega

theorem length_store (room : stream.buf.length = 64) {offset : Nat}
    (fits : offset + data.length ≤ 64) : (stream.store offset data).buf.length = 64 := by
  simp only [Md5Stream.store, List.length_append, List.length_take, List.length_drop]
  omega

theorem take_store (room : stream.buf.length = 64) {offset : Nat}
    (fits : offset + data.length ≤ 64) :
    (stream.store offset data).buf.take (offset + data.length) = stream.buf.take offset ++ data := by
  have size : (stream.buf.take offset ++ data).length = offset + data.length := by
    simp only [List.length_append, List.length_take]
    omega
  rw [Md5Stream.store, ← size]
  exact List.take_left

theorem md5Full_eq (enough : data.length ≤ fuel) :
    md5Full fuel stream data =
      { stream with
        abcd := (feed 64 md5Block { state := stream.abcd, rest := [] } data).state }.store 0
        (feed 64 md5Block { state := stream.abcd, rest := [] } data).rest := by
  induction fuel generalizing stream data with
  | zero =>
      obtain rfl := List.length_eq_zero_iff.mp (Nat.le_zero.mp enough)
      rfl
  | succ fuel ih =>
      rw [md5Full]
      split
      · next full =>
        have front : (data.take 64).length = 64 := List.length_take_of_le full
        have fed : feed 64 md5Block { state := stream.abcd, rest := [] } data =
            feed 64 md5Block { state := md5Block stream.abcd (data.take 64), rest := [] }
              (data.drop 64) := by
          have block := @feed_block _ _ 64 md5Block { state := stream.abcd, rest := [] }
            (data.take 64) (by intro none; simp [none] at front) (by simp [front])
          rw [List.nil_append] at block
          rw [← block, ← feed_append, List.take_append_drop]
        rw [ih (by simp only [List.length_drop]; omega), fed]
      · next short =>
        rw [feed_short (by simp only [List.length_nil]; omega)]
        rfl

theorem count_append {low high : UInt32} {length : Nat} (size : Nat)
    (count : low.toNat + 2 ^ 32 * high.toNat = 8 * length % 2 ^ 64) :
    (low + (size * 8).toUInt32).toNat +
        2 ^ 32 * (high + (size / 2 ^ 29).toUInt32 +
          if low + (size * 8).toUInt32 < (size * 8).toUInt32 then 1 else 0).toNat =
      8 * (length + size) % 2 ^ 64 := by
  have lowBound := low.toNat_lt
  have highBound := high.toNat_lt
  split
  · next carry =>
    rw [UInt32.lt_iff_toNat_lt] at carry
    simp only [UInt32.toNat_add, Nat.toUInt32_eq, UInt32.toNat_ofNat', UInt32.toNat_one] at carry ⊢
    omega
  · next carry =>
    rw [UInt32.lt_iff_toNat_lt] at carry
    simp only [UInt32.toNat_add, Nat.toUInt32_eq, UInt32.toNat_ofNat', UInt32.toNat_zero] at carry ⊢
    omega

theorem md5Holds_full {whole : Bytes} (room : stream.buf.length = 64)
    (count : stream.count0.toNat + 2 ^ 32 * stream.count1.toNat = 8 * whole.length % 2 ^ 64)
    (fed : md5Fed whole = feed 64 md5Block { state := stream.abcd, rest := [] } data)
    (enough : data.length ≤ fuel) : Md5Holds (md5Full fuel stream data) whole := by
  have size := length_md5Fed whole
  rw [md5Full_eq enough, ← fed]
  have fits : 0 + (md5Fed whole).rest.length ≤ 64 := by omega
  refine ⟨count, length_store room fits, rfl, ?_⟩
  have stored := @take_store { stream with abcd := (md5Fed whole).state } (md5Fed whole).rest room 0 fits
  rw [← size]
  simpa using stored

theorem md5Append_holds (holds : Md5Holds stream message) {nbytes : Int}
    (size : nbytes = data.length) (short : data.length < 2 ^ 31 - 63) :
    ∃ final, md5Append stream data nbytes = some final ∧ Md5Holds final (message ++ data) := by
  have counted := count_append data.length holds.count
  rw [← List.length_append] at counted
  have offset := holds.offset
  have fed : md5Fed (message ++ data) =
      feed 64 md5Block { state := stream.abcd, rest := stream.buf.take stream.offset } data := by
    rw [offset, holds.rest, holds.state]
    exact feed_append
  have all : data.take nbytes.toNat = data := by simp [size]
  unfold md5Append
  rw [all]
  split
  · next nothing =>
    obtain rfl := List.length_eq_zero_iff.mp (show data.length = 0 by omega)
    exact ⟨stream, rfl, by simpa using holds⟩
  · next something =>
    dsimp only
    split
    · next partly =>
      have room := holds.room
      have within : stream.offset < 64 := by omega
      have sum : cInt (stream.offset + nbytes) = stream.offset + nbytes :=
        cInt_of_bounds (by omega) (by omega)
      rw [sum]
      generalize copyEq : (if 64 < (stream.offset + nbytes : Int) then 64 - stream.offset
        else data.length) = copy
      have fits : stream.offset + copy ≤ 64 ∧ copy ≤ data.length ∧ 0 < copy := by
        split at copyEq
        · omega
        · omega
      have front : (data.take copy).length = copy := List.length_take_of_le fits.2.1
      have held : (stream.buf.take stream.offset).length = stream.offset :=
        List.length_take_of_le (by omega)
      rw [if_neg (show ¬64 < stream.offset + copy by omega)]
      split
      · next short =>
        have most : copy = data.length := by
          split at copyEq
          · omega
          · exact copyEq.symm
        rw [feed_short (by rw [held]; omega)] at fed
        rw [most, List.take_length]
        have total : (message ++ data).length % 64 = stream.offset + data.length := by
          rw [List.length_append]
          omega
        refine ⟨_, rfl, counted, length_store room (by omega), by rw [fed]; rfl, ?_⟩
        rw [total, fed]
        exact take_store room (by omega)
      · next filled =>
        have stored : stream.buf.take stream.offset ++ data.take copy ++
            stream.buf.drop (stream.offset + (data.take copy).length) =
              stream.buf.take stream.offset ++ data.take copy := by
          rw [List.drop_eq_nil_of_le (by omega), List.append_nil]
        refine ⟨_, rfl, md5Holds_full (length_store room (by omega)) counted ?_ (by simp)⟩
        rw [fed]
        have block := @feed_block _ _ 64 md5Block
          { state := stream.abcd, rest := stream.buf.take stream.offset } (data.take copy)
          (by intro none; simp [none] at front; omega) (by simp only [held, front]; omega)
        conv_lhs => rw [← List.take_append_drop copy data, feed_append, block]
        simp only [Md5Stream.store, stored]
    · next whole =>
      rw [not_not.mp whole] at fed
      exact ⟨_, rfl, md5Holds_full holds.room counted fed (Nat.le_refl _)⟩

theorem md5Init_holds {buf : Bytes} (room : buf.length = 64) : Md5Holds (md5Init buf) [] :=
  ⟨rfl, room, rfl, by simp [md5Fed]⟩

theorem md5Append_pieces {pieces : List Bytes} (holds : Md5Holds stream message)
    (short : ∀ piece ∈ pieces, piece.length < 2 ^ 31 - 63) :
    ∃ final, pieces.foldlM md5AppendText stream = some final ∧
      Md5Holds final (message ++ pieces.flatten) := by
  induction pieces generalizing stream message with
  | nil => exact ⟨stream, rfl, by simpa using holds⟩
  | cons piece pieces ih =>
      simp only [List.forall_mem_cons] at short
      have size : cInt piece.length = piece.length := cInt_of_bounds (by omega) (by omega)
      obtain ⟨next, appended, held⟩ := md5Append_holds holds size short.1
      obtain ⟨final, rest, whole⟩ := ih held short.2
      refine ⟨final, ?_, ?_⟩
      · rw [List.foldlM_cons, md5AppendText, appended]
        exact rest
      · rw [List.flatten_cons, ← List.append_assoc]
        exact whole

theorem md5Append_take {start : Bytes} {nbytes : Int} :
    md5Append stream start nbytes = md5Append stream (start.take nbytes.toNat) nbytes := by
  simp only [md5Append, List.take_take, Nat.min_self]

theorem take_md5PadBytes {count : Nat} (few : count ≤ 63) :
    md5PadBytes.take (count + 1) = 0x80 :: List.replicate count 0 := by
  rw [md5PadBytes, List.take_succ_cons, List.take_replicate, Nat.min_eq_left few]

theorem Md5Holds.padding (holds : Md5Holds stream message) :
    stream.padding = (119 - message.length % 64) % 64 + 1 := by
  have count := holds.count
  have mask : (63 : UInt32).toNat = 2 ^ 6 - 1 := rfl
  have bound := stream.count0.toNat_lt
  rw [Md5Stream.padding, UInt32.toNat_and, mask, Nat.and_two_pow_sub_one_eq_mod,
    UInt32.toNat_sub, UInt32.toNat_shiftRight, Nat.shiftRight_eq_div_pow]
  have shift : (3 : UInt32).toNat % 32 = 3 := rfl
  have low : (55 : UInt32).toNat = 55 := rfl
  rw [shift, low]
  omega

theorem Md5Holds.lengthBytes (holds : Md5Holds stream message) :
    stream.count0 = (message.length * 8 % 2 ^ 32).toUInt32 ∧
      stream.count1 = (message.length * 8 / 2 ^ 32 % 2 ^ 32).toUInt32 := by
  have count := holds.count
  have lowBound := stream.count0.toNat_lt
  have highBound := stream.count1.toNat_lt
  constructor
  · apply UInt32.toNat.inj
    rw [Nat.toUInt32_eq, UInt32.toNat_ofNat']
    omega
  · apply UInt32.toNat.inj
    rw [Nat.toUInt32_eq, UInt32.toNat_ofNat']
    omega

/-- The padding of `md5_finish` is that of the whole message. -/
theorem md5Finish_eq (holds : Md5Holds stream message) :
    md5Finish stream = some (md5 message) := by
  obtain ⟨low, high⟩ := holds.lengthBytes
  have few : (119 - message.length % 64) % 64 ≤ 63 := by omega
  have pads : md5PadBytes.take stream.padding =
      0x80 :: List.replicate ((119 - message.length % 64) % 64) 0 := by
    rw [holds.padding, take_md5PadBytes few]
  have padding : (md5PadBytes.take stream.padding).length < 2 ^ 31 - 63 := by
    rw [List.length_take]
    exact Nat.lt_of_le_of_lt (Nat.min_le_right _ _) (by decide)
  obtain ⟨padded, padEq, padHolds⟩ : ∃ padded,
      md5Append stream md5PadBytes stream.padding = some padded ∧
        Md5Holds padded (message ++ md5PadBytes.take stream.padding) := by
    rw [md5Append_take, Int.toNat_natCast]
    exact md5Append_holds holds (by rw [pads, holds.padding]; simp) padding
  obtain ⟨final, finalEq, finalHolds⟩ := @md5Append_holds _ _
    (littleEndian stream.count0 ++ littleEndian stream.count1) padHolds 8 rfl (by simp [littleEndian])
  have same : message ++ md5PadBytes.take stream.padding ++
      (littleEndian stream.count0 ++ littleEndian stream.count1) = md5Pad message := by
    rw [pads, low, high, md5Pad]
    simp
  rw [same] at finalHolds
  have size : (md5Pad message).length = 64 * ((md5Pad message).length / 64) := by
    have total : (md5Pad message).length =
        message.length + 9 + (119 - message.length % 64) % 64 := by
      simp [md5Pad, littleEndian]
      omega
    omega
  have blocks := @md5Blocks_eq md5Start _ _ _ _ size
    (show (md5Pad message).length / 64 ≤ (md5Pad message).length by omega)
    (show 16 * ((md5Pad message).length / 64) ≤ (md5Pad message).length by omega)
  have state : final.abcd =
      md5Blocks (md5Pad message).length (md5Words (md5Pad message).length (md5Pad message))
        md5Start := by
    rw [finalHolds.state, blocks, md5Fed]
  calc md5Finish stream = some final.abcd.digest := by
        simp only [md5Finish, padEq, finalEq, Option.bind_eq_bind, Option.bind_some, Option.pure_def]
    _ = some (md5 message) := by
        rw [state]
        rfl

/-- The digest of a message is that of its pieces appended one after the other, whatever the block
contained before. -/
theorem md5_streams {pieces : List Bytes} {buf : Bytes} (room : buf.length = 64)
    (short : ∀ piece ∈ pieces, piece.length < 2 ^ 31 - 63) :
    (pieces.foldlM md5AppendText (md5Init buf)).bind md5Finish = some (md5 pieces.flatten) := by
  obtain ⟨final, appended, holds⟩ := md5Append_pieces (md5Init_holds room) short
  rw [List.nil_append] at holds
  rw [appended, Option.bind_some, md5Finish_eq holds]

theorem md5_streams_credentials :
    (List.replicate 64 (7 : UInt8)).length = 64 ∧
      (∀ piece ∈ [ascii "user", [58], ascii "realm", [58], ascii "secret"],
        piece.length < 2 ^ 31 - 63) ∧
      ([ascii "user", [58], ascii "realm", [58], ascii "secret"].foldlM md5AppendText
        (md5Init (List.replicate 64 7))).bind md5Finish =
          some (md5 [ascii "user", [58], ascii "realm", [58], ascii "secret"].flatten) := by
  have room : (List.replicate 64 (7 : UInt8)).length = 64 := List.length_replicate
  have short : ∀ piece ∈ [ascii "user", [58], ascii "realm", [58], ascii "secret"],
      piece.length < 2 ^ 31 - 63 := by decide
  exact ⟨room, short, md5_streams room short⟩

end Append

end ProxySet
