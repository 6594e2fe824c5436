import Mathlib.Algebra.BigOperators.Group.List.Basic
import Mathlib.Tactic.NormNum
import Mathlib.Tactic.Positivity
import ProxySet.Redsocks.EventCore

/-!
`httpr_buffer` of `http-relay.c`, the byte string that keeps the header of a request and its body.
Its lengths are signed ints of 32 bits, and its room is doubled until the new data fit.
-/

namespace ProxySet

/-! ### The buffer -/

/-- `buff` is the block it points to, or `NULL`. -/
structure HttprBuffer where
  buff : Option Bytes
  len : Int
  maxLen : Int

namespace HttprBuffer

def content (buffer : HttprBuffer) : Bytes :=
  (buffer.buff.getD []).take buffer.len.toNat

end HttprBuffer

def calloc (allocated : Bool) (size : Int) : Option Bytes :=
  if allocated then some (List.replicate size.toNat 0) else none

/-- `memcpy` into a block, at an offset; there is no result where it writes behind the end. -/
def memcpy (block : Bytes) (offset : Nat) (data : Bytes) : Option Bytes :=
  if offset + data.length ≤ block.length then
    some (block.take offset ++ data ++ block.drop (offset + data.length))
  else none

def httprBufferInit (allocated : Bool) : Int × HttprBuffer :=
  let buffer : HttprBuffer := { buff := calloc allocated 4096, len := 0, maxLen := 4096 }
  if buffer.buff.isNone then (-1, buffer) else (0, buffer)

/-- The loop that doubles `max_len`; there is no result where more rounds are needed. -/
def doubled : Nat → Int → Int → Option Int
  | 0, _, _ => none
  | rounds + 1, needed, maxLen =>
      if needed > maxLen then doubled rounds needed (cInt (maxLen * 2)) else some maxLen

inductive Appended where
  /-- It is still in the loop. -/
  | looping
  /-- It has written outside of its block. -/
  | outside
  | returned (code : Int) (buffer : HttprBuffer)

def httprBufferAppend (rounds : Nat) (allocated : Bool) (buffer : HttprBuffer) (data : Bytes) :
    Appended :=
  match doubled rounds (cInt (cInt (buffer.len + data.length) + 1)) buffer.maxLen with
  | none => .looping
  | some maxLen =>
      match calloc allocated maxLen with
      | none => .returned (-1) { buffer with maxLen := maxLen }
      | some block =>
          let len := cInt (buffer.len + data.length)
          let written := do
            let kept ← memcpy block 0 buffer.content
            let added ← memcpy kept buffer.len.toNat data
            memcpy added len.toNat [0]
          match written with
          | none => .outside
          | some added => .returned 0 { buff := some added, len := len, maxLen := maxLen }

/-! ### Calls that are correct -/

structure Append where
  data : Bytes
  allocated : Bool

/-- A call ends with the string in its room; the string is longer by the data, or as it was. -/
def Append.Correct (call : Append) (buffer next : HttprBuffer) : Prop :=
  ∃ rounds code, httprBufferAppend rounds call.allocated buffer call.data = .returned code next ∧
    0 < next.len + 1 ∧ next.len + 1 ≤ next.maxLen ∧
    (code = 0 ∧ next.content = buffer.content ++ call.data ∧ next.len = next.content.length ∨
      code = -1 ∧ next.content = buffer.content ∧ next.len = buffer.len)

def AllCorrect : HttprBuffer → List Append → Prop
  | _, [] => True
  | buffer, call :: calls => ∃ next, call.Correct buffer next ∧ AllCorrect next calls

/-- The data of the calls that got memory. -/
def stored (calls : List Append) : Bytes :=
  (calls.filter Append.allocated).flatMap Append.data

/-- The new data and what is stored are below 2^30 bytes.  At 2^31 - 1 bytes the sum that the loop
compares overflows, and a call without memory returns as it should. -/
def Append.Fits (call : Append) (length : Nat) : Prop :=
  length + call.data.length < 2 ^ 30 ∨
    length + call.data.length = 2 ^ 31 - 1 ∧ call.allocated = false

/-! ### The doubling loop -/

theorem cInt_overflow : cInt (2 ^ 31) = -2 ^ 31 := by
  decide

theorem doubled_overflowed {needed maxLen : Int} (positive : 0 < needed)
    (overflowed : maxLen = -2 ^ 31 ∨ maxLen = 0) (rounds : Nat) :
    doubled rounds needed maxLen = none := by
  induction rounds generalizing maxLen with
  | zero => rfl
  | succ rounds ih =>
      have more : needed > maxLen := by
        rcases overflowed with rfl | rfl
        · omega
        · exact positive
      rw [doubled, if_pos more]
      refine ih (.inr ?_)
      rcases overflowed with rfl | rfl
      · decide
      · decide

theorem cInt_double {power : Nat} (below : power < 30) :
    cInt ((2 : Int) ^ power * 2) = 2 ^ (power + 1) := by
  have small : (2 : Int) ^ (power + 1) ≤ 2 ^ 30 :=
    pow_le_pow_right₀ (by decide) (by omega)
  have positive : (0 : Int) < 2 ^ (power + 1) := by positivity
  rw [← pow_succ]
  exact cInt_of_bounds (by omega) (by omega)

/-- The loop stops at a power of two that is enough. -/
theorem doubled_eq_some {rounds power : Nat} {needed maxLen : Int} (below : power ≤ 30)
    (stopped : doubled rounds needed (2 ^ power) = some maxLen) :
    needed ≤ maxLen ∧ ∃ last, power ≤ last ∧ last ≤ 30 ∧ maxLen = 2 ^ last := by
  induction rounds generalizing power with
  | zero => cases stopped
  | succ rounds ih =>
      rw [doubled] at stopped
      split at stopped
      · next more =>
        by_cases full : power = 30
        · subst full
          rw [show (2 : Int) ^ 30 * 2 = 2 ^ 31 by norm_num, cInt_overflow,
            doubled_overflowed (by omega) (.inl rfl)] at stopped
          cases stopped
        · rw [cInt_double (by omega)] at stopped
          obtain ⟨enough, last, above, bound, same⟩ := ih (by omega) stopped
          exact ⟨enough, last, by omega, bound, same⟩
      · next enough =>
        obtain rfl := Option.some.inj stopped
        exact ⟨by omega, power, le_refl power, below, rfl⟩

theorem exists_doubled {power : Nat} {needed : Int} (below : power ≤ 30)
    (small : needed ≤ 2 ^ 30) :
    ∃ rounds maxLen, doubled rounds needed (2 ^ power) = some maxLen := by
  induction gap : 30 - power generalizing power with
  | zero =>
      obtain rfl : power = 30 := by omega
      exact ⟨1, 2 ^ 30, by rw [doubled, if_neg (by omega)]⟩
  | succ gap ih =>
      by_cases more : needed > 2 ^ power
      · obtain ⟨rounds, maxLen, stopped⟩ := @ih (power + 1) (by omega) (by omega)
        refine ⟨rounds + 1, maxLen, ?_⟩
        rw [doubled, if_pos more, cInt_double (by omega)]
        exact stopped
      · exact ⟨1, 2 ^ power, by rw [doubled, if_neg more]⟩

/-! ### One call -/

/-- The string is in its room, which is a power of two that has not overflowed. -/
structure HttprBuffer.Sound (buffer : HttprBuffer) : Prop where
  len : buffer.len = buffer.content.length
  inside : buffer.len + 1 ≤ buffer.maxLen
  power : ∃ power ≤ 30, buffer.maxLen = 2 ^ power

theorem memcpy_behind (front data : Bytes) {room : Nat} (inside : data.length ≤ room) :
    memcpy (front ++ List.replicate room 0) front.length data =
      some (front ++ data ++ List.replicate (room - data.length) 0) := by
  rw [memcpy, if_pos (by simp [inside]), List.take_left, ← List.drop_drop, List.drop_left,
    List.drop_replicate]

theorem written_eq {content data : Bytes} {size : Nat}
    (inside : content.length + data.length + 1 ≤ size) :
    (do
      let kept ← memcpy (List.replicate size 0) 0 content
      let added ← memcpy kept content.length data
      memcpy added (content.length + data.length) [0]) =
      some (content ++ data ++ List.replicate (size - (content.length + data.length)) 0) := by
  have first : memcpy (List.replicate size 0) 0 content = _ :=
    memcpy_behind [] content (show content.length ≤ size by omega)
  have second := memcpy_behind content data (show data.length ≤ size - content.length by omega)
  have third := memcpy_behind (content ++ data) [0]
    (show 1 ≤ size - content.length - data.length by omega)
  rw [List.length_append] at third
  simp only [first, List.nil_append, Option.bind_eq_bind, Option.bind_some, second, third]
  obtain ⟨rest, last⟩ : ∃ rest, size - content.length - data.length = rest + 1 :=
    ⟨size - content.length - data.length - 1, by omega⟩
  rw [← Nat.sub_sub, last, List.replicate_succ]
  simp

section Call

variable {buffer next : HttprBuffer} {call : Append}

theorem length_eq (sound : buffer.Sound)
    (bound : buffer.content.length + call.data.length < 2 ^ 31) :
    cInt (buffer.len + call.data.length) =
      (buffer.content.length + call.data.length : Nat) := by
  rw [sound.len, cInt_of_bounds (by omega) (by omega)]
  omega

theorem needed_eq (sound : buffer.Sound)
    (bound : buffer.content.length + call.data.length + 1 < 2 ^ 31) :
    cInt (cInt (buffer.len + call.data.length) + 1) =
      buffer.content.length + call.data.length + 1 := by
  rw [length_eq sound (by omega), cInt_of_bounds (by omega) (by omega)]
  omega

theorem needed_overflow (sound : buffer.Sound)
    (full : buffer.content.length + call.data.length + 1 = 2 ^ 31) :
    cInt (cInt (buffer.len + call.data.length) + 1) = -2 ^ 31 := by
  have sum : ((buffer.content.length + call.data.length : Nat) : Int) + 1 = 2 ^ 31 := by
    omega
  rw [length_eq sound (by omega), sum, cInt_overflow]

/-- A call whose loop has come to its end, where the sum has not overflowed. -/
theorem append_stopped (sound : buffer.Sound)
    (bound : buffer.content.length + call.data.length + 1 < 2 ^ 31) {rounds : Nat} {maxLen : Int}
    (stopped : doubled rounds (buffer.content.length + call.data.length + 1) buffer.maxLen =
      some maxLen) :
    buffer.content.length + call.data.length < 2 ^ 30 ∧ ∃ code next,
      httprBufferAppend rounds call.allocated buffer call.data = .returned code next ∧
      next.Sound ∧ next.content = buffer.content ++ (if call.allocated then call.data else []) ∧
      code = if call.allocated then 0 else -1 := by
  obtain ⟨power, below, room⟩ := sound.power
  rw [room] at stopped
  obtain ⟨enough, last, -, bounded, lastEq⟩ := doubled_eq_some below stopped
  have top : (2 : Int) ^ last ≤ 2 ^ 30 := pow_le_pow_right₀ (by decide) bounded
  refine ⟨by omega, ?_⟩
  simp only [httprBufferAppend, needed_eq sound bound, room, stopped]
  cases allocated : call.allocated with
  | false =>
      refine ⟨-1, { buffer with maxLen := maxLen }, rfl, ?_, ?_, rfl⟩
      · have inside : buffer.len + 1 ≤ maxLen := by
          have len := sound.len
          omega
        exact ⟨sound.len, inside, last, bounded, lastEq⟩
      · simp [HttprBuffer.content]
  | true =>
      have len := length_eq sound (Nat.lt_of_succ_lt bound)
      have written := written_eq
        (show buffer.content.length + call.data.length + 1 ≤ maxLen.toNat by omega)
      have offset : buffer.len.toNat = buffer.content.length := by
        rw [sound.len]
        exact Int.toNat_natCast _
      simp only [calloc, if_true, len, offset, Int.toNat_natCast, written]
      have content : HttprBuffer.content
          { buff := some (buffer.content ++ call.data ++
              List.replicate (maxLen.toNat - (buffer.content.length + call.data.length)) 0)
            len := (buffer.content.length + call.data.length : Nat)
            maxLen := maxLen } = buffer.content ++ call.data := by
        rw [HttprBuffer.content, Option.getD_some, Int.toNat_natCast]
        exact List.take_left' (List.length_append ..)
      refine ⟨0, _, rfl, ⟨?_, ?_, last, bounded, lastEq⟩, content, rfl⟩
      · rw [content, List.length_append]
      · dsimp only
        omega

/-- A call where the sum has overflowed: the loop is not entered. -/
theorem append_overflowed (sound : buffer.Sound)
    (full : buffer.content.length + call.data.length + 1 = 2 ^ 31) (rounds : Nat) :
    httprBufferAppend (rounds + 1) call.allocated buffer call.data =
      if call.allocated then .outside else .returned (-1) buffer := by
  obtain ⟨power, below, room⟩ := sound.power
  have top : (2 : Int) ^ power ≤ 2 ^ 30 := pow_le_pow_right₀ (by decide) below
  have positive : (0 : Int) < 2 ^ power := by positivity
  have inside := sound.inside
  have len := sound.len
  have stopped : doubled (rounds + 1) (-2 ^ 31) buffer.maxLen = some buffer.maxLen := by
    rw [doubled, if_neg (by omega)]
  simp only [httprBufferAppend, needed_overflow sound full, stopped]
  cases call.allocated with
  | false => rfl
  | true =>
      have offset : buffer.len.toNat = buffer.content.length := by
        rw [sound.len]
        exact Int.toNat_natCast _
      have first : memcpy (List.replicate buffer.maxLen.toNat 0) 0 buffer.content = _ :=
        memcpy_behind [] buffer.content (show buffer.content.length ≤ buffer.maxLen.toNat by omega)
      have second : memcpy ([] ++ buffer.content ++
          List.replicate (buffer.maxLen.toNat - buffer.content.length) 0) buffer.content.length
          call.data = none := by
        refine if_neg ?_
        simp only [List.nil_append, List.length_append, List.length_replicate]
        omega
      simp only [calloc, if_true, first, Option.bind_eq_bind, Option.bind_some, offset, second,
        Option.bind_none]

theorem Append.Correct.fits (sound : buffer.Sound)
    (bound : buffer.content.length + call.data.length < 2 ^ 31)
    (correct : call.Correct buffer next) :
    call.Fits buffer.content.length ∧ next.Sound ∧
      next.content = buffer.content ++ (if call.allocated then call.data else []) := by
  obtain ⟨rounds, code, returned, -, -, -⟩ := correct
  by_cases full : buffer.content.length + call.data.length + 1 = 2 ^ 31
  · cases rounds with
    | zero => cases returned
    | succ rounds =>
        rw [append_overflowed sound full] at returned
        cases allocated : call.allocated with
        | true =>
            rw [allocated] at returned
            cases returned
        | false =>
            rw [allocated] at returned
            obtain ⟨-, rfl⟩ := Appended.returned.inj returned
            exact ⟨.inr ⟨by omega, allocated⟩, sound, by simp⟩
  · have below : buffer.content.length + call.data.length + 1 < 2 ^ 31 := by omega
    cases stopped : doubled rounds (buffer.content.length + call.data.length + 1) buffer.maxLen with
    | none =>
        rw [httprBufferAppend, needed_eq sound below, stopped] at returned
        cases returned
    | some maxLen =>
        obtain ⟨small, other, after, same, afterSound, content, -⟩ :=
          append_stopped sound below stopped
        rw [same] at returned
        obtain ⟨-, rfl⟩ := Appended.returned.inj returned
        exact ⟨.inl small, afterSound, content⟩

theorem HttprBuffer.Sound.room (sound : buffer.Sound) :
    0 < buffer.len + 1 ∧ buffer.len + 1 ≤ buffer.maxLen := by
  refine ⟨?_, sound.inside⟩
  have len := sound.len
  omega

theorem Append.Fits.correct (sound : buffer.Sound) (fits : call.Fits buffer.content.length) :
    ∃ next, call.Correct buffer next := by
  rcases fits with small | ⟨full, failed⟩
  · obtain ⟨power, below, room⟩ := sound.power
    have needed : (buffer.content.length + call.data.length + 1 : Int) ≤ 2 ^ 30 := by
      omega
    obtain ⟨rounds, maxLen, stopped⟩ := exists_doubled below needed
    rw [← room] at stopped
    obtain ⟨-, code, next, returned, nextSound, content, codeEq⟩ :=
      append_stopped sound (by omega) stopped
    refine ⟨next, rounds, code, returned, nextSound.room.1, nextSound.room.2, ?_⟩
    cases allocated : call.allocated with
    | true =>
        rw [allocated] at codeEq content
        exact .inl ⟨codeEq, content, nextSound.len⟩
    | false =>
        rw [allocated, if_neg Bool.false_ne_true, List.append_nil] at content
        rw [allocated] at codeEq
        exact .inr ⟨codeEq, content, by rw [nextSound.len, content, sound.len]⟩
  · refine ⟨buffer, 1, -1, ?_, sound.room.1, sound.room.2, .inr ⟨rfl, rfl, rfl⟩⟩
    rw [append_overflowed sound (by omega), failed]
    rfl

end Call

/-! ### All calls -/

theorem sound_init (allocated : Bool) : (httprBufferInit allocated).2.Sound := by
  have content : (httprBufferInit allocated).2.content = [] := by
    cases allocated <;> rfl
  have len : (httprBufferInit allocated).2.len = 0 := by
    cases allocated <;> rfl
  have room : (httprBufferInit allocated).2.maxLen = 2 ^ 12 := by
    cases allocated <;> rfl
  refine ⟨by rw [content, len]; rfl, by rw [len, room]; decide, 12, by decide, room⟩

theorem stored_cons (call : Append) (calls : List Append) :
    stored (call :: calls) = (if call.allocated then call.data else []) ++ stored calls := by
  unfold stored
  cases allocated : call.allocated with
  | true => rw [List.filter_cons_of_pos allocated, List.flatMap_cons, if_pos rfl]
  | false => rw [List.filter_cons_of_neg (by simp [allocated]), if_neg Bool.false_ne_true]; rfl

theorem allCorrect_iff {buffer : HttprBuffer} (sound : buffer.Sound) (calls : List Append)
    (total : buffer.content.length + (calls.map (·.data.length)).sum < 2 ^ 31) :
    AllCorrect buffer calls ↔ ∀ before call after, calls = before ++ call :: after →
      call.Fits (buffer.content.length + (stored before).length) := by
  induction calls generalizing buffer with
  | nil => simp [AllCorrect]
  | cons call calls ih =>
      rw [List.map_cons, List.sum_cons] at total
      have shorter : (if call.allocated then call.data else []).length ≤ call.data.length := by
        split <;> simp
      have later : ∀ next : HttprBuffer, next.Sound →
          next.content = buffer.content ++ (if call.allocated then call.data else []) →
          (AllCorrect next calls ↔ ∀ before other after, calls = before ++ other :: after →
            other.Fits (buffer.content.length + (stored (call :: before)).length)) := by
        intro next nextSound content
        have length := congrArg List.length content
        rw [List.length_append] at length
        rw [ih nextSound (by omega), length]
        simp only [stored_cons, List.length_append, Nat.add_assoc]
      constructor
      · rintro ⟨next, correct, rest⟩ before other after split
        obtain ⟨fits, nextSound, content⟩ := correct.fits sound (by omega)
        cases before with
        | nil =>
            obtain ⟨rfl, rfl⟩ := List.cons.inj split
            exact fits
        | cons head before =>
            obtain ⟨rfl, others⟩ := List.cons.inj split
            exact (later next nextSound content).mp rest before other after others
      · intro each
        have fits : call.Fits buffer.content.length := each [] call calls rfl
        obtain ⟨next, correct⟩ := fits.correct sound
        obtain ⟨-, nextSound, content⟩ := correct.fits sound (by omega)
        refine ⟨next, correct, (later next nextSound content).mpr ?_⟩
        intro before other after split
        exact each (call :: before) other after (by rw [split]; rfl)

/-- After `httpr_buffer_init`, which may fail, the calls are correct exactly if for each of them the
data that have been stored and the new ones are below 2^30 bytes, but for the one overflow. -/
theorem httprBufferAppend_correct_iff (allocated : Bool) (calls : List Append)
    (total : (calls.map (·.data.length)).sum < 2 ^ 31) :
    AllCorrect (httprBufferInit allocated).2 calls ↔
      ∀ before call after, calls = before ++ call :: after → call.Fits (stored before).length := by
  have empty : (httprBufferInit allocated).2.content.length = 0 := by
    cases allocated <;> rfl
  have exactly := allCorrect_iff (sound_init allocated) calls (by omega)
  simpa only [empty, Nat.zero_add] using exactly

theorem httprBufferAppend_correct_iff_two :
    AllCorrect (httprBufferInit true).2 [⟨[1, 2], true⟩, ⟨[3], false⟩] := by
  refine (httprBufferAppend_correct_iff true _ (by decide)).mpr ?_
  intro before call after split
  rcases before with _ | ⟨first, _ | ⟨second, before⟩⟩
  · obtain ⟨rfl, -⟩ := List.cons.inj split
    exact .inl (by decide)
  · obtain ⟨rfl, rest⟩ := List.cons.inj split
    obtain ⟨rfl, -⟩ := List.cons.inj rest
    exact .inl (by decide)
  · simp at split

/-! ### The strings of a client -/

def appends (pieces : List Bytes) : List Append :=
  pieces.map (Append.mk · true)

theorem stored_appends (pieces : List Bytes) : stored (appends pieces) = pieces.flatten := by
  induction pieces with
  | nil => rfl
  | cons piece pieces ih =>
      rw [appends, List.map_cons, stored_cons, if_pos rfl, ← appends, ih, List.flatten_cons]

theorem sum_appends (pieces : List Bytes) :
    ((appends pieces).map (·.data.length)).sum = pieces.flatten.length := by
  rw [appends, List.map_map, List.length_flatten]
  rfl

/-- A list of bytes stands for the buffer as long as it is below the bound of the client's model. -/
theorem allCorrect_appends_iff (pieces : List Bytes) (total : pieces.flatten.length < 2 ^ 31) :
    AllCorrect (httprBufferInit true).2 (appends pieces) ↔
      pieces.flatten.length < httprBufferRoom := by
  have empty : (httprBufferInit true).2.content.length = 0 := rfl
  rw [allCorrect_iff (sound_init true) _ (by rw [sum_appends]; omega)]
  simp only [empty, Nat.zero_add]
  constructor
  · intro each
    rcases List.eq_nil_or_concat pieces with rfl | ⟨front, last, rfl⟩
    · exact (by decide : 0 < httprBufferRoom)
    · have split : appends (front.concat last) = appends front ++ ⟨last, true⟩ :: [] := by
        simp [appends]
      rcases each _ _ _ split with small | ⟨-, failed⟩
      · rw [stored_appends] at small
        simpa [httprBufferRoom] using small
      · cases failed
  · intro room before call after split
    have allocated : call.allocated = true := by
      have member : call ∈ appends pieces := by simp [split]
      obtain ⟨piece, -, rfl⟩ := List.mem_map.mp member
      rfl
    have whole : pieces.flatten = stored before ++ (call.data ++ stored after) := by
      rw [← stored_appends, split, stored, List.filter_append, List.flatMap_append, ← stored,
        ← stored, stored_cons, if_pos allocated]
    rw [whole, List.length_append, List.length_append, httprBufferRoom] at room
    exact .inl (by omega)

/-- The callback that reads the request returns exactly if all the calls that have made its strings
do: the header with the body, and, once the header is complete, the first line. -/
theorem endless_iff {client : Client} (live : client.dropped = false) (header first : List Bytes)
    (buffer : client.httpr.clientBuffer = header.flatten)
    (firstline : client.state = .httpr .new ∧ first = [] ∨
      client.state ≠ .httpr .new ∧ client.httpr.firstline.getD [] = first.flatten)
    (headerTotal : header.flatten.length < 2 ^ 31) (firstTotal : first.flatten.length < 2 ^ 31) :
    endless .httprClient client = false ↔
      AllCorrect (httprBufferInit true).2 (appends header) ∧
        AllCorrect (httprBufferInit true).2 (appends first) := by
  rw [allCorrect_appends_iff header headerTotal, allCorrect_appends_iff first firstTotal,
    endless, live, buffer]
  rcases firstline with ⟨state, rfl⟩ | ⟨state, line⟩
  · have small : (0 : Nat) < httprBufferRoom := by decide
    simp [state, small]
  · simp [bne_iff_ne.mpr state, line]

theorem stored_replicate (count : Nat) (data : Bytes) :
    (stored (List.replicate count ⟨data, true⟩)).length = count * data.length := by
  induction count with
  | zero => simp [stored]
  | succ count ih =>
      rw [List.replicate_succ, stored_cons, if_pos rfl, List.length_append, ih, Nat.succ_mul,
        Nat.add_comm]

theorem not_allCorrect_replicate (count : Nat) (data : Bytes)
    (total : ((List.replicate (count + 1) (Append.mk data true)).map (·.data.length)).sum < 2 ^ 31)
    (full : 2 ^ 30 ≤ count * data.length + data.length) :
    ¬AllCorrect (httprBufferInit true).2 (List.replicate (count + 1) ⟨data, true⟩) := by
  intro correct
  have empty : (httprBufferInit true).2.content.length = 0 := rfl
  have each := (allCorrect_iff (sound_init true) _ (by omega)).mp correct
  have fits := each (List.replicate count ⟨data, true⟩) ⟨data, true⟩ [] List.replicate_succ'
  rw [stored_replicate, Append.Fits] at fits
  rcases fits with small | ⟨-, failed⟩
  · dsimp only at small
    omega
  · cases failed

/-- A body of 2^30 bytes in reads of 64 KiB: the room for the last one overflows. -/
theorem httprBufferAppend_loops :
    ((List.replicate 16384 (Append.mk (List.replicate 65536 0) true)).map
        (·.data.length)).sum < 2 ^ 31 ∧
      ¬AllCorrect (httprBufferInit true).2
        (List.replicate 16384 ⟨List.replicate 65536 0, true⟩) := by
  have total : ((List.replicate 16384 (Append.mk (List.replicate 65536 0) true)).map
      (·.data.length)).sum < 2 ^ 31 := by
    rw [List.map_replicate, List.length_replicate, List.sum_replicate]
    norm_num
  refine ⟨total, not_allCorrect_replicate 16383 _ total ?_⟩
  rw [List.length_replicate]
  norm_num

end ProxySet
