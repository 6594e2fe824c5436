import ProxySet.Lib.Halting
import ProxySet.Redsocks.ConfigCore
import ProxySet.Redsocks.ParserRun

/-!
`parser_run` step by step, with its buffer: the offsets that its pointers stand for, the lengths
that it gives to `memmove`, and its conversions to `int`.  A step is one round of the loop over the
lines up to the loop over the tokens, or one round of the latter.
-/

namespace ProxySet

open Lines Halting

/-- Where `parser_run` is: at the head of its loop, or at that of the loop over the tokens, with
the offset of `iter` in the buffer. -/
inductive ParserPoint where
  | lines
  | tokens (iter : Nat)
  deriving DecidableEq

/-- The `data` of the state is all of the buffer up to `filled`, where a NUL follows. -/
structure ParserMachine (Memory : Type) extends ParserState Memory where
  point : ParserPoint
  /-- The lengths that `memmove` was called with. -/
  moves : List Int
  /-- The search for the end of a comment of one line has returned NULL. -/
  lost : Bool

variable {Memory : Type}

namespace ParserMachine

def offset (machine : ParserMachine Memory) (text : Bytes) : Nat :=
  machine.data.length - text.length

def filled (machine : ParserMachine Memory) : Int :=
  machine.data.length

/-- `memmove` of the rest of the buffer to its front, from an offset that an `int` holds. -/
def shift (machine : ParserMachine Memory) (offset : Nat) : ParserMachine Memory :=
  let movedLen := cInt offset
  { machine with
    data := machine.data.drop movedLen.toNat
    moves := machine.moves ++ [machine.filled - movedLen] }

def enter (machine : ParserMachine Memory) : ParserMachine Memory :=
  if machine.inComment then
    match afterComment machine.data with
    | some rest =>
        { machine.shift (machine.offset rest) with inComment := false, point := .tokens 0 }
    | none => { machine with data := [], needMoreData := true }
  else { machine with point := .tokens 0 }

/-- The count that `fgets` gets is an `int`; one that is not positive makes it return NULL. -/
def read (machine : ParserMachine Memory) : ParserMachine Memory :=
  let count := cInt (machine.size - machine.filled)
  if count ≤ 0 then machine
  else
    let line := fgetsLine count.toNat machine.file
    let eof := fgetsEof count.toNat machine.file
    if eof && line.isEmpty then { machine with eof := true }
    else
      let text := cstr line
      let longer :=
        { machine with
          data := machine.data ++ text, file := machine.file.drop line.length, eof := eof }
      if text.getLast? = some 10 then enter { longer with needMoreData := false }
      else { longer with needMoreSpace := true }

def grow (machine : ParserMachine Memory) : ParserMachine Memory :=
  if machine.needMoreSpace then { machine with size := machine.size * 2, needMoreSpace := false }
  else machine

def abort (machine : ParserMachine Memory) : ParserMachine Memory :=
  { machine with vars := { machine.vars with aborted := true } }

def lineStep (machine : ParserMachine Memory) : ParserMachine Memory :=
  -- `assert(context->buffer.filled < context->buffer.size)`
  if machine.size ≤ machine.data.length then machine.abort
  else if machine.grow.needMoreData then machine.grow.read
  else machine.grow.enter

/-- The end of a comment of one line is moved to where its mark stands. -/
def skipLine (machine : ParserMachine Memory) (rest : Bytes) : ParserMachine Memory :=
  match strchr rest 10 with
  | none => { machine.abort with lost := true }
  | some found =>
      let endc := machine.offset found + 1
      let iter := machine.offset rest - 2
      let movedLen := cInt (machine.filled - endc)
      { machine with
        data := machine.data.take iter ++ (machine.data.drop endc).take movedLen.toNat
        moves := machine.moves ++ [movedLen]
        point := .tokens iter }

def leave (machine : ParserMachine Memory) (iter : Nat) : ParserMachine Memory :=
  { machine.shift iter with point := .lines }

def tokenStep (platform : Platform) (sections : List (ParserSection Memory))
    (machine : ParserMachine Memory) (iter : Nat) : ParserMachine Memory :=
  if machine.vars.stopped || machine.inComment then machine.leave iter
  else match gettoken (machine.data.drop iter) with
    | .incomplete rest => { machine.leave (machine.offset rest) with needMoreData := true }
    | .invalid message rest =>
        { machine.leave (machine.offset rest) with
          vars := machine.vars.parserError message, needMoreData := true }
    | .token _ text rest =>
        if text = [47, 47] then machine.skipLine rest
        else if text = [47, 42] then
          { machine.shift (machine.offset rest) with inComment := true, point := .tokens 0 }
        else
          { machine with
            vars := machine.vars.token platform sections text
            tokens := machine.tokens ++ [text]
            point := .tokens (machine.offset rest) }

def finished (machine : ParserMachine Memory) : Bool :=
  decide (machine.point = .lines) && !machine.vars.aborted && machine.done

/-- A step; a program that has been aborted makes none. -/
def next (platform : Platform) (sections : List (ParserSection Memory))
    (machine : ParserMachine Memory) : ParserMachine Memory :=
  if machine.vars.aborted || machine.finished then machine
  else match machine.point with
    | .lines => machine.lineStep
    | .tokens iter => machine.tokenStep platform sections iter

def start (memory : Memory) (file : Bytes) : ParserMachine Memory :=
  { parserStart memory file with point := .lines, moves := [], lost := false }

/-! ### What is asked of a run -/

/-- No assertion has failed, no comment's end was missed, there is room behind the text, and no
length given to `memmove` was negative. -/
structure Safe (machine : ParserMachine Memory) : Prop where
  asserted : machine.vars.aborted = false
  found : machine.lost = false
  room : machine.data.length < machine.size
  moves : ∀ length ∈ machine.moves, 0 ≤ length

/-- `parser_run` comes to the end of its loop, and all states on the way are safe. -/
def Total (platform : Platform) (sections : List (ParserSection Memory)) (memory : Memory)
    (file : Bytes) : Prop :=
  ∃ count, ((next platform sections)^[count] (start memory file)).finished = true ∧
    ∀ before ≤ count, ((next platform sections)^[before] (start memory file)).Safe

/-- The next token ends an assignment that has no key. -/
def KeylessEnd (machine : ParserMachine Memory) (iter : Nat) : Prop :=
  machine.vars.stopped = false ∧ machine.inComment = false ∧
    machine.vars.parserSection.isSome = true ∧ machine.vars.keyToken = none ∧
    ∃ copytype rest, gettoken (machine.data.drop iter) = .token copytype [59] rest

/-- The next read has more room than an `int` can tell. -/
def Oversized (machine : ParserMachine Memory) : Prop :=
  machine.needMoreData = true ∧ 2 ^ 31 ≤ machine.grow.size - machine.data.length

def Sane (machine : ParserMachine Memory) : Prop :=
  machine.vars.aborted = true ∨ machine.finished = true ∨
    match machine.point with
    | .lines => ¬machine.Oversized
    | .tokens iter => ¬machine.KeylessEnd iter

/-! ### The invariant -/

def Placed (machine : ParserMachine Memory) : Prop :=
  match machine.point with
  | .lines =>
      (machine.needMoreSpace = true → machine.needMoreData = true) ∧
        (machine.needMoreData = false → Complete 10 machine.data ∧
          (machine.vars.stopped = true ∨ machine.inComment = true))
  | .tokens iter => iter ≤ machine.data.length ∧ Complete 10 (machine.data.drop iter) ∧
      machine.needMoreSpace = false ∧ machine.needMoreData = false

structure Sound (machine : ParserMachine Memory) : Prop extends machine.Safe where
  power : ∃ power ≤ 31, machine.size = 2 ^ power
  placed : machine.Placed

def measure (machine : ParserMachine Memory) : Nat :=
  8 * machine.file.length +
    match machine.point with
    | .tokens iter => 4 * (machine.data.length - iter) + 3
    | .lines => 4 * machine.data.length +
        if machine.needMoreData then (if machine.needMoreSpace then 0 else 1) else 2

/-- A step keeps the machine sound, and brings it closer to its end. -/
def Advances (machine after : ParserMachine Memory) : Prop :=
  after.Sound ∧ (after.finished = true ∨ after.measure < machine.measure)

section Steps

variable {machine : ParserMachine Memory}

theorem Sound.sizeBound (sound : machine.Sound) : machine.size ≤ 2 ^ 31 := by
  obtain ⟨power, below, size⟩ := sound.power
  rw [size]
  exact Nat.pow_le_pow_right (by decide) below

theorem Sound.short (sound : machine.Sound) : machine.data.length < 2 ^ 31 :=
  lt_of_lt_of_le sound.room sound.sizeBound

theorem shift_eq (short : machine.data.length < 2 ^ 31) {offset : Nat}
    (inside : offset ≤ machine.data.length) :
    machine.shift offset =
      { machine with
        data := machine.data.drop offset
        moves := machine.moves ++ [((machine.data.length - offset : Nat) : Int)] } := by
  have exactly : cInt offset = offset := cInt_of_bounds (by omega) (by omega)
  have length : machine.filled - offset = ((machine.data.length - offset : Nat) : Int) := by
    rw [filled]
    omega
  simp only [shift, exactly, Int.toNat_natCast, length]

theorem offset_eq (machine : ParserMachine Memory) {text : Bytes} (suffix : text <:+ machine.data) :
    machine.offset text ≤ machine.data.length ∧ machine.data.drop (machine.offset text) = text := by
  refine ⟨Nat.sub_le _ _, ?_⟩
  exact (List.suffix_iff_eq_drop.mp suffix).symm

theorem Safe.move (safe : machine.Safe) (length : Nat) :
    ∀ moved ∈ machine.moves ++ [(length : Int)], 0 ≤ moved := by
  intro moved member
  rcases List.mem_append.mp member with before | now
  · exact safe.moves moved before
  · obtain rfl := List.mem_singleton.mp now
    exact Int.natCast_nonneg length

theorem enter_sound (safe : machine.Safe) (power : ∃ power ≤ 31, machine.size = 2 ^ power)
    (short : machine.data.length < 2 ^ 31) (point : machine.point = .lines)
    (complete : Complete 10 machine.data) (spaced : machine.needMoreSpace = false)
    (ready : machine.needMoreData = false) :
    machine.enter.Sound ∧
      machine.enter.measure ≤ 8 * machine.file.length + 4 * machine.data.length + 3 ∧
      (machine.inComment = true →
        machine.enter.measure < 8 * machine.file.length + 4 * machine.data.length + 2) := by
  cases inside : machine.inComment with
  | false =>
      have entered : machine.enter = { machine with point := .tokens 0 } := by
        simp [enter, inside]
      rw [entered]
      refine ⟨⟨⟨safe.asserted, safe.found, safe.room, safe.moves⟩, power, ?_⟩, ?_,
        fun wrong => Bool.noConfusion wrong⟩
      · exact ⟨Nat.zero_le _, complete, spaced, ready⟩
      · simp only [measure, Nat.sub_zero]
        omega
  | true =>
      cases found : afterComment machine.data with
      | none =>
          have entered : machine.enter = { machine with data := [], needMoreData := true } := by
            simp [enter, inside, found]
          have value : machine.enter.measure = 8 * machine.file.length + 1 := by
            simp [entered, measure, point, spaced]
          rw [value, entered]
          refine ⟨⟨⟨safe.asserted, safe.found, ?_, safe.moves⟩, power, ?_⟩, by omega, by omega⟩
          · exact lt_of_le_of_lt (Nat.zero_le _) safe.room
          · unfold Placed
            simp only [point]
            exact ⟨fun _ => trivial, fun wrong => Bool.noConfusion wrong⟩
      | some rest =>
          obtain ⟨suffix, shorter⟩ := afterComment_suffix found
          obtain ⟨bound, text⟩ := offset_eq machine suffix
          have entered : machine.enter =
              { machine with
                data := rest
                moves := machine.moves ++
                  [((machine.data.length - machine.offset rest : Nat) : Int)]
                inComment := false
                point := .tokens 0 } := by
            simp only [enter, inside, if_true, found, shift_eq short bound, text]
          have value : machine.enter.measure = 8 * machine.file.length + 4 * rest.length + 3 := by
            simp only [entered, measure, Nat.sub_zero, Nat.add_assoc]
          rw [value, entered]
          refine ⟨⟨⟨safe.asserted, safe.found, ?_, safe.move _⟩, power, ?_⟩, by omega, by omega⟩
          · have room := safe.room
            dsimp only
            omega
          · exact ⟨Nat.zero_le _, complete.suffix suffix, spaced, ready⟩

theorem read_advances (sound : machine.Sound) (point : machine.point = .lines)
    (waiting : machine.needMoreData = true) (spaced : machine.needMoreSpace = false)
    (roomy : machine.size - machine.data.length < 2 ^ 31) :
    machine.read.Sound ∧ (machine.read.finished = true ∨ machine.read.measure < machine.measure) ∧
      (1 < machine.size - machine.data.length →
        machine.read.finished = true ∨ machine.read.measure + 1 < machine.measure) := by
  have room := sound.room
  have count : cInt (machine.size - machine.filled) =
      ((machine.size - machine.data.length : Nat) : Int) := by
    rw [filled, cInt_of_bounds (by omega) (by omega)]
    omega
  have positive : ¬((machine.size - machine.data.length : Nat) : Int) ≤ 0 := by
    omega
  have cases := fgets_cases (machine.size - machine.data.length) machine.file
  have split := fgetsLine_split (machine.size - machine.data.length) machine.file
  have bound := fgetsLine_length_le (machine.size - machine.data.length) machine.file
  unfold read
  simp only [count, if_neg positive, Int.toNat_natCast]
  generalize machine.file.drop
    (fgetsLine (machine.size - machine.data.length) machine.file).length = rest at *
  generalize fgetsLine (machine.size - machine.data.length) machine.file = line at *
  generalize fgetsEof (machine.size - machine.data.length) machine.file = eof at *
  have sizes : line.length + rest.length = machine.file.length := by
    rw [← split, List.length_append]
  have shorter : (cstr line).length ≤ line.length := (List.takeWhile_prefix _).length_le
  have before : machine.measure = 8 * machine.file.length + (4 * machine.data.length + 1) := by
    simp only [measure, point, waiting, spaced, if_true, Bool.false_eq_true, if_false]
  split
  · have ended : finished { machine with eof := true } = true := by
      simp [finished, point, sound.asserted, ParserState.done]
    refine ⟨⟨⟨sound.asserted, sound.found, sound.room, sound.moves⟩, sound.power, ?_⟩,
      .inl ended, fun _ => .inl ended⟩
    have placed := sound.placed
    unfold Placed at placed ⊢
    simp only [point] at placed ⊢
    exact placed
  · next going =>
    split
    · next ends =>
      have nonempty : 0 < (cstr line).length := by
        refine List.length_pos_iff.mpr fun empty => ?_
        rw [empty] at ends
        cases ends
      have longer : Safe { machine with
          data := machine.data ++ cstr line, file := rest, eof := eof, needMoreData := false } := by
        refine ⟨sound.asserted, sound.found, ?_, sound.moves⟩
        rw [List.length_append]
        dsimp only
        omega
      have complete : Complete 10 (machine.data ++ cstr line) :=
        complete_of_getLast? (by simp [List.getLast?_append, ends])
      have short : (machine.data ++ cstr line).length < 2 ^ 31 := by
        rw [List.length_append]
        have limit := sound.sizeBound
        omega
      obtain ⟨after, closer, -⟩ := enter_sound longer sound.power short point complete spaced rfl
      rw [List.length_append] at closer
      refine ⟨after, .inr ?_, fun _ => .inr ?_⟩
      · dsimp only at closer
        omega
      · dsimp only at closer
        omega
    · have after : measure { machine with
          data := machine.data ++ cstr line, file := rest, eof := eof, needMoreSpace := true } =
            8 * rest.length + 4 * (machine.data.length + (cstr line).length) := by
        simp only [measure, point, waiting, if_true, List.length_append, Nat.add_zero]
      refine ⟨⟨⟨sound.asserted, sound.found, ?_, sound.moves⟩, sound.power, ?_⟩, .inr ?_,
        fun more => .inr ?_⟩
      · rw [List.length_append]
        dsimp only
        omega
      · unfold Placed
        simp only [point]
        refine ⟨fun _ => waiting, fun ready => ?_⟩
        rw [waiting] at ready
        cases ready
      · rw [after]
        omega
      · have nonempty : 0 < line.length := by
          refine List.length_pos_iff.mpr fun empty => going ?_
          rcases cases with ⟨last, -⟩ | ⟨-, -, emptyEof⟩
          · rw [empty] at last
            cases last
          · rw [emptyEof more empty, empty]
            rfl
        rw [after]
        omega

theorem grow_sound (sound : machine.Sound) (point : machine.point = .lines)
    (small : ¬machine.Oversized) :
    machine.grow.Sound ∧ machine.grow.needMoreSpace = false ∧
      machine.grow.needMoreData = machine.needMoreData ∧
      machine.grow.measure = machine.measure + (if machine.needMoreSpace then 1 else 0) ∧
      (machine.needMoreSpace = true → 1 < machine.grow.size - machine.grow.data.length) := by
  have room := sound.room
  have placed := sound.placed
  unfold Placed at placed
  simp only [point] at placed
  cases spaced : machine.needMoreSpace with
  | false =>
      have same : machine.grow = machine := by simp [grow, spaced]
      rw [same]
      exact ⟨sound, spaced, rfl, rfl, nofun⟩
  | true =>
      have waiting := placed.1 spaced
      have grown : machine.grow =
          { machine with size := machine.size * 2, needMoreSpace := false } := by
        simp [grow, spaced]
      have fits : machine.size * 2 - machine.data.length < 2 ^ 31 := by
        by_contra large
        refine small ⟨waiting, ?_⟩
        rw [grown]
        exact Nat.le_of_not_lt large
      obtain ⟨power, below, size⟩ := sound.power
      have limit := sound.sizeBound
      have notTop : power ≠ 31 := by
        rintro rfl
        omega
      rw [grown]
      refine ⟨⟨⟨sound.asserted, sound.found, ?_, sound.moves⟩, ⟨power + 1, by omega, ?_⟩, ?_⟩, rfl,
        rfl, ?_, ?_⟩
      · dsimp only
        omega
      · dsimp only
        rw [size, Nat.pow_succ]
      · unfold Placed
        simp only [point]
        exact ⟨nofun, placed.2⟩
      · simp only [measure, point, waiting, spaced, if_true, Bool.false_eq_true, if_false]
        omega
      · intro _
        dsimp only
        omega

theorem lineStep_advances (sound : machine.Sound) (point : machine.point = .lines)
    (running : machine.finished = false) (small : ¬machine.Oversized) :
    machine.Advances machine.lineStep := by
  have room := sound.room
  obtain ⟨grown, spaced, waits, value, growth⟩ := grow_sound sound point small
  have grownPoint : machine.grow.point = .lines := by
    unfold grow
    split
    · exact point
    · exact point
  unfold lineStep
  rw [if_neg (by omega)]
  cases waiting : machine.needMoreData with
  | true =>
      rw [waiting] at waits
      rw [if_pos waits]
      have data : machine.grow.data = machine.data := by
        unfold grow
        split
        · rfl
        · rfl
      have roomy : machine.grow.size - machine.grow.data.length < 2 ^ 31 := by
        by_contra large
        rw [data] at large
        exact small ⟨waiting, Nat.le_of_not_lt large⟩
      obtain ⟨after, closer, closerByTwo⟩ := read_advances grown grownPoint waits spaced roomy
      refine ⟨after, ?_⟩
      cases space : machine.needMoreSpace with
      | false =>
          rw [space, if_neg Bool.false_ne_true, Nat.add_zero] at value
          rwa [value] at closer
      | true =>
          rw [space, if_pos rfl] at value
          have closer := closerByTwo (growth space)
          rw [value] at closer
          exact closer.imp id fun less => by omega
  | false =>
      have placed := sound.placed
      unfold Placed at placed
      simp only [point] at placed
      have space : machine.needMoreSpace = false := by
        cases space : machine.needMoreSpace with
        | false => rfl
        | true =>
            rw [placed.1 space] at waiting
            cases waiting
      have same : machine.grow = machine := by simp [grow, space]
      rw [same, waiting, if_neg Bool.false_ne_true]
      obtain ⟨complete, stopped | inside⟩ := placed.2 waiting
      · simp [finished, point, sound.asserted, ParserState.done, stopped] at running
      · obtain ⟨after, -, closer⟩ := enter_sound sound.toSafe sound.power sound.short point complete
          space waiting
        refine ⟨after, .inr ?_⟩
        have before : machine.measure =
            8 * machine.file.length + (4 * machine.data.length + 2) := by
          simp only [measure, point, waiting, Bool.false_eq_true, if_false]
        have less := closer inside
        omega

theorem leave_eq (short : machine.data.length < 2 ^ 31) {iter : Nat}
    (inside : iter ≤ machine.data.length) :
    machine.leave iter =
      { machine with
        data := machine.data.drop iter
        moves := machine.moves ++ [((machine.data.length - iter : Nat) : Int)]
        point := .lines } := by
  rw [leave, shift_eq short inside]

theorem shift_safe (sound : machine.Sound) (offset : Nat) :
    Safe { machine with
      data := machine.data.drop offset
      moves := machine.moves ++ [((machine.data.length - offset : Nat) : Int)] } := by
  refine ⟨sound.asserted, sound.found, ?_, sound.move _⟩
  have room := sound.room
  rw [List.length_drop]
  dsimp only
  omega

theorem leave_advances (sound : machine.Sound) {iter : Nat} (point : machine.point = .tokens iter)
    {rest : Bytes} (suffix : rest <:+ machine.data.drop iter)
    (spaced : machine.needMoreSpace = false) {vars : ParserVars Memory}
    (asserted : vars.aborted = false) :
    machine.Advances
      { machine.leave (machine.offset rest) with vars := vars, needMoreData := true } := by
  obtain ⟨bound, text⟩ := offset_eq machine (suffix.trans (List.drop_suffix iter machine.data))
  have safe := shift_safe sound (machine.offset rest)
  have shorter := suffix.length_le
  rw [List.length_drop] at shorter
  rw [leave_eq sound.short bound]
  refine ⟨⟨⟨asserted, safe.found, safe.room, safe.moves⟩, sound.power, ?_⟩, .inr ?_⟩
  · exact ⟨fun _ => rfl, nofun⟩
  · simp only [measure, text, point, spaced, if_true, Bool.false_eq_true, if_false]
    omega

def withoutLine (machine : ParserMachine Memory) (rest found : Bytes) : ParserMachine Memory :=
  { machine with
    data := machine.data.take (machine.offset rest - 2) ++
      machine.data.drop (machine.offset found + 1)
    moves := machine.moves ++ [((machine.data.length - (machine.offset found + 1) : Nat) : Int)]
    point := .tokens (machine.offset rest - 2) }

theorem skipLine_eq (short : machine.data.length < 2 ^ 31) {rest found : Bytes}
    (suffix : rest <:+ machine.data) (here : strchr rest 10 = some found) :
    machine.skipLine rest = machine.withoutLine rest found := by
  obtain ⟨bound, text⟩ := offset_eq machine ((strchr_suffix here).trans suffix)
  have full : 0 < found.length := List.length_pos_iff.mpr (strchr_eq_some_iff.mp here).2
  have length := congrArg List.length text
  rw [List.length_drop] at length
  have movedLen : cInt (machine.filled - (machine.offset found + 1 : Nat)) =
      ((machine.data.length - (machine.offset found + 1) : Nat) : Int) := by
    rw [filled, cInt_of_bounds (by omega) (by omega)]
    omega
  have moved : (machine.data.drop (machine.offset found + 1)).take
      (machine.data.length - (machine.offset found + 1)) =
        machine.data.drop (machine.offset found + 1) := by
    rw [← List.length_drop, List.take_length]
  simp only [skipLine, here, movedLen, Int.toNat_natCast, moved, withoutLine]

theorem withoutLine_text {rest found : Bytes} (suffix : rest <:+ machine.data)
    (here : strchr rest 10 = some found) :
    (machine.data.take (machine.offset rest - 2)).length = machine.offset rest - 2 ∧
      (machine.withoutLine rest found).data.drop (machine.offset rest - 2) = found.drop 1 := by
  obtain ⟨bound, -⟩ := offset_eq machine suffix
  obtain ⟨-, text⟩ := offset_eq machine ((strchr_suffix here).trans suffix)
  have front : (machine.data.take (machine.offset rest - 2)).length = machine.offset rest - 2 :=
    List.length_take_of_le (by omega)
  refine ⟨front, ?_⟩
  rw [withoutLine, List.drop_left' front, ← List.drop_drop, text]

theorem skipLine_advances (sound : machine.Sound) {iter : Nat}
    (point : machine.point = .tokens iter) {rest : Bytes} (suffix : rest <:+ machine.data.drop iter)
    (nonempty : rest ≠ []) : machine.Advances (machine.skipLine rest) := by
  have placed := sound.placed
  unfold Placed at placed
  simp only [point] at placed
  obtain ⟨within, complete, spaced, ready⟩ := placed
  obtain ⟨found, here⟩ := strchr_of_mem (newline_mem_of_complete (complete.suffix suffix) nonempty)
  have behind := strchr_suffix here
  have inside := suffix.trans (List.drop_suffix iter machine.data)
  obtain ⟨front, text⟩ := withoutLine_text inside here
  have shorter := behind.length_le
  have shortest := suffix.length_le
  rw [List.length_drop] at shortest
  have full : 0 < found.length := List.length_pos_iff.mpr (strchr_eq_some_iff.mp here).2
  have length := congrArg List.length text
  rw [List.length_drop, List.length_drop] at length
  have room := sound.room
  have total : (machine.withoutLine rest found).data.length =
      machine.offset rest - 2 + (machine.data.length - (machine.offset found + 1)) := by
    rw [withoutLine, List.length_append, front, List.length_drop]
  have restOffset : machine.offset rest = machine.data.length - rest.length := rfl
  have foundOffset : machine.offset found = machine.data.length - found.length := rfl
  rw [skipLine_eq sound.short inside here]
  refine ⟨⟨⟨sound.asserted, sound.found, ?_, sound.move _⟩, sound.power, ?_, ?_, spaced, ready⟩,
    .inr ?_⟩
  · have size : (machine.withoutLine rest found).size = machine.size := rfl
    omega
  · omega
  · rw [text]
    exact complete.suffix (((List.drop_suffix 1 found).trans behind).trans suffix)
  · have after : (machine.withoutLine rest found).measure = 8 * machine.file.length +
        (4 * ((machine.withoutLine rest found).data.length - (machine.offset rest - 2)) + 3) := rfl
    have before : machine.measure =
        8 * machine.file.length + (4 * (machine.data.length - iter) + 3) := by
      simp only [measure, point]
    rw [after, before]
    omega

section Aborted

variable (platform : Platform) (sections : List (ParserSection Memory)) (vars : ParserVars Memory)

theorem callback_aborted (hook : Option (Memory → Except Bytes Memory)) (call : ParserCall)
    (failed : Bytes) : (vars.callback hook call failed).aborted = vars.aborted := by
  unfold ParserVars.callback
  split
  · rfl
  · split
    · rfl
    · rfl

theorem openSection_aborted : (vars.openSection sections).aborted = vars.aborted := by
  unfold ParserVars.openSection
  split
  · rfl
  · rfl
  · split
    · exact callback_aborted _ _ _ _
    · rfl

theorem closeSection_aborted : vars.closeSection.aborted = vars.aborted := by
  unfold ParserVars.closeSection
  split
  · exact callback_aborted _ _ _ _
  · rfl

theorem assignment_aborted : vars.assignment.aborted = vars.aborted := by
  unfold ParserVars.assignment
  split
  · rfl
  · rfl
  · rfl

theorem assign_aborted (current : ParserSection Memory) (key value : Bytes) :
    (vars.assign platform current key value).aborted = vars.aborted := by
  unfold ParserVars.assign
  split
  · rfl
  · dsimp only
    split
    · rfl
    · rfl

theorem word_aborted (text : Bytes) : (vars.word text).aborted = vars.aborted := by
  unfold ParserVars.word
  split
  · rfl
  · rfl
  · rfl
  · rfl

variable {vars}

theorem terminate_aborted (fine : vars.aborted = false) :
    (vars.terminate platform).aborted = true ↔
      vars.parserSection.isSome = true ∧ vars.keyToken = none := by
  unfold ParserVars.terminate
  split
  · next outside => simp [ParserVars.clearAssignment, ParserVars.parserError, fine, outside]
  · next inside key value => simp [ParserVars.clearAssignment, ParserVars.parserError, fine, key]
  · next inside key value =>
    rw [ParserVars.clearAssignment, assign_aborted, fine, key]
    simp
  · next inside keyless => simp [inside, keyless]

/-- `assert(false)` stands behind the end of an assignment that has no key, and nowhere else. -/
theorem token_aborted (fine : vars.aborted = false) (text : Bytes) :
    (vars.token platform sections text).aborted = true ↔
      text = [59] ∧ vars.parserSection.isSome = true ∧ vars.keyToken = none := by
  have never : ∀ other : ParserVars Memory, other.aborted = vars.aborted →
      text ≠ [59] → (other.aborted = true ↔
        text = [59] ∧ vars.parserSection.isSome = true ∧ vars.keyToken = none) := by
    intro other same unlike
    rw [same, fine]
    simp [unlike]
  unfold ParserVars.token
  split
  · next opens => exact never _ (openSection_aborted sections vars) (by simp [opens])
  · split
    · next closes => exact never _ (closeSection_aborted vars) (by simp [closes])
    · split
      · next equals => exact never _ (assignment_aborted vars) (by simp [equals])
      · split
        · next ends =>
          rw [terminate_aborted platform fine]
          simp [ends]
        · next unlike => exact never _ (word_aborted vars text) unlike

end Aborted

theorem leave_stopped (sound : machine.Sound) {iter : Nat} (point : machine.point = .tokens iter)
    (ends : machine.vars.stopped = true ∨ machine.inComment = true) :
    machine.Advances (machine.leave iter) := by
  have placed := sound.placed
  unfold Placed at placed
  simp only [point] at placed
  obtain ⟨within, complete, spaced, ready⟩ := placed
  have safe := shift_safe sound iter
  rw [leave_eq sound.short within]
  refine ⟨⟨⟨safe.asserted, safe.found, safe.room, safe.moves⟩, sound.power, ?_, ?_⟩, .inr ?_⟩
  · intro space
    rw [spaced] at space
    cases space
  · exact fun _ => ⟨complete, ends⟩
  · simp only [measure, point, ready, Bool.false_eq_true, if_false, List.length_drop]
    omega

theorem comment_advances (sound : machine.Sound) {iter : Nat} (point : machine.point = .tokens iter)
    {rest : Bytes} (suffix : rest <:+ machine.data.drop iter)
    (shorter : rest.length < machine.data.length - iter) :
    machine.Advances
      { machine.shift (machine.offset rest) with inComment := true, point := .tokens 0 } := by
  have placed := sound.placed
  unfold Placed at placed
  simp only [point] at placed
  obtain ⟨within, complete, spaced, ready⟩ := placed
  obtain ⟨bound, text⟩ := offset_eq machine (suffix.trans (List.drop_suffix iter machine.data))
  have safe := shift_safe sound (machine.offset rest)
  rw [text] at safe
  rw [shift_eq sound.short bound, text]
  refine ⟨⟨⟨safe.asserted, safe.found, safe.room, safe.moves⟩, sound.power, ?_⟩, .inr ?_⟩
  · exact ⟨Nat.zero_le _, complete.suffix suffix, spaced, ready⟩
  · simp only [measure, point]
    omega

theorem token_advances (platform : Platform) (sections : List (ParserSection Memory))
    (sound : machine.Sound) {iter : Nat} (point : machine.point = .tokens iter) {text rest : Bytes}
    (suffix : rest <:+ machine.data.drop iter) (shorter : rest.length < machine.data.length - iter)
    (fine : (machine.vars.token platform sections text).aborted = false) :
    machine.Advances
      { machine with
        vars := machine.vars.token platform sections text
        tokens := machine.tokens ++ [text]
        point := .tokens (machine.offset rest) } := by
  have placed := sound.placed
  unfold Placed at placed
  simp only [point] at placed
  obtain ⟨within, complete, spaced, ready⟩ := placed
  obtain ⟨bound, textEq⟩ := offset_eq machine (suffix.trans (List.drop_suffix iter machine.data))
  have length := congrArg List.length textEq
  rw [List.length_drop] at length
  refine ⟨⟨⟨fine, sound.found, sound.room, sound.moves⟩, sound.power, bound, ?_, spaced, ready⟩,
    .inr ?_⟩
  · rw [textEq]
    exact complete.suffix suffix
  · simp only [measure, point]
    omega

theorem tokenStep_advances (platform : Platform) (sections : List (ParserSection Memory))
    (sound : machine.Sound) {iter : Nat} (point : machine.point = .tokens iter)
    (keyed : ¬machine.KeylessEnd iter) :
    machine.Advances (machine.tokenStep platform sections iter) := by
  have placed := sound.placed
  unfold Placed at placed
  simp only [point] at placed
  obtain ⟨within, complete, spaced, ready⟩ := placed
  unfold tokenStep
  split
  · next ends => exact leave_stopped sound point (Bool.or_eq_true_iff.mp ends)
  · next going =>
    rw [Bool.or_eq_true_iff, not_or, Bool.not_eq_true, Bool.not_eq_true] at going
    split
    · next rest scanned =>
      obtain rfl := gettoken_incomplete scanned
      have suffix := List.dropWhile_suffix (l := machine.data.drop iter) isspace
      have bound := (offset_eq machine (suffix.trans (List.drop_suffix iter machine.data))).1
      refine leave_advances sound point suffix spaced ?_
      rw [leave_eq sound.short bound]
      exact sound.asserted
    · next message rest scanned =>
      obtain rfl := gettoken_invalid scanned
      exact leave_advances sound point (List.dropWhile_suffix _) spaced sound.asserted
    · next copytype text rest scanned =>
      obtain ⟨suffix, shorter⟩ := gettoken_suffix scanned
      rw [List.length_drop] at shorter
      split
      · exact skipLine_advances sound point suffix (gettoken_rest_ne_nil complete scanned)
      · split
        · exact comment_advances sound point suffix shorter
        · refine token_advances platform sections sound point suffix shorter ?_
          rw [← Bool.not_eq_true, token_aborted platform sections sound.asserted]
          rintro ⟨rfl, opened, keyless⟩
          exact keyed ⟨going.1, going.2, opened, keyless, copytype, rest, scanned⟩

variable (platform : Platform) (sections : List (ParserSection Memory))

theorem next_finished (ended : machine.finished = true) :
    machine.next platform sections = machine := by
  simp [next, ended]

theorem next_advances (sound : machine.Sound) (running : machine.finished = false)
    (sane : machine.Sane) : machine.Advances (machine.next platform sections) := by
  unfold next
  rw [sound.asserted, running, Bool.or_self, if_neg Bool.false_ne_true]
  rcases sane with aborted | ended | sane
  · rw [sound.asserted] at aborted
    cases aborted
  · rw [running] at ended
    cases ended
  · cases point : machine.point with
    | lines =>
        simp only [point] at sane
        exact lineStep_advances sound point running sane
    | tokens iter =>
        simp only [point] at sane
        exact tokenStep_advances platform sections sound point sane

/-- A read with too much room is tried again and again. -/
theorem next_oversized (sound : machine.Sound) (point : machine.point = .lines)
    (running : machine.finished = false) (oversized : machine.Oversized) :
    machine.next platform sections = machine.grow ∧
      machine.grow.next platform sections = machine.grow ∧ machine.grow.finished = false := by
  obtain ⟨waiting, large⟩ := oversized
  have room := sound.room
  have limit := sound.sizeBound
  have spaced : machine.grow.needMoreSpace = false := by
    unfold grow
    split
    · rfl
    · next none => simpa using none
  have fields : machine.grow.vars = machine.vars ∧ machine.grow.point = .lines ∧
      machine.grow.needMoreData = true ∧ machine.grow.data = machine.data ∧
      machine.grow.eof = machine.eof ∧ machine.size ≤ machine.grow.size ∧
      machine.grow.size ≤ 2 * machine.size := by
    unfold grow
    split
    · exact ⟨rfl, point, waiting, rfl, rfl, by dsimp only; omega, by dsimp only; omega⟩
    · exact ⟨rfl, point, waiting, rfl, rfl, le_refl _, by omega⟩
  obtain ⟨vars, grownPoint, grownWaiting, data, eof, larger, twice⟩ := fields
  have reads : machine.grow.read = machine.grow := by
    have stuck : cInt (machine.grow.size - machine.grow.filled) ≤ 0 := by
      rw [filled, data]
      exact cInt_nonpos (by omega) (by omega)
    simp only [read, if_pos stuck]
  have grownRunning : machine.grow.finished = false := by
    rw [finished, ParserState.done] at running ⊢
    rw [vars, grownPoint, eof]
    rw [point] at running
    exact running
  have again : machine.grow.grow = machine.grow := by
    rw [grow, spaced, if_neg Bool.false_ne_true]
  refine ⟨?_, ?_, grownRunning⟩
  · unfold next
    rw [sound.asserted, running, Bool.or_self, if_neg Bool.false_ne_true]
    simp only [point]
    rw [lineStep, if_neg (by omega), if_pos grownWaiting, reads]
  · have asserted : machine.grow.vars.aborted = false := by
      rw [vars]
      exact sound.asserted
    unfold next
    rw [asserted, grownRunning, Bool.or_self, if_neg Bool.false_ne_true]
    simp only [grownPoint]
    rw [lineStep, if_neg (by rw [data]; omega), again, if_pos grownWaiting, reads]

theorem next_keyless (running : machine.finished = false) (asserted : machine.vars.aborted = false)
    {iter : Nat} (point : machine.point = .tokens iter) (keyless : machine.KeylessEnd iter) :
    (machine.next platform sections).vars.aborted = true := by
  obtain ⟨going, outside, opened, missing, copytype, rest, scanned⟩ := keyless
  unfold next
  rw [asserted, running, Bool.or_self, if_neg Bool.false_ne_true]
  simp only [point, tokenStep, going, outside, Bool.or_self, Bool.false_eq_true, if_false, scanned]
  exact (token_aborted platform sections asserted [59]).mpr ⟨rfl, opened, missing⟩

end Steps

/-! ### Runs -/

section Runs

variable (platform : Platform) (sections : List (ParserSection Memory))

theorem sound_start (memory : Memory) (file : Bytes) : (start memory file).Sound where
  asserted := rfl
  found := rfl
  room := by simp [start, parserStart]
  moves := by simp [start]
  power := ⟨8, by decide, rfl⟩
  placed := ⟨nofun, nofun⟩

theorem sound_iterate {machine : ParserMachine Memory} (sound : machine.Sound) (count : Nat)
    (sane : ∀ before < count, ((next platform sections)^[before] machine).Sane) :
    ((next platform sections)^[count] machine).Sound := by
  induction count with
  | zero => exact sound
  | succ count ih =>
      have before := ih fun earlier less => sane earlier (by omega)
      rw [Function.iterate_succ_apply']
      cases ended : ((next platform sections)^[count] machine).finished with
      | true =>
          rw [next_finished platform sections ended]
          exact before
      | false => exact (next_advances platform sections before ended (sane count (by omega))).1

theorem total_of_sane {memory : Memory} {file : Bytes}
    (sane : ∀ count, ((next platform sections)^[count] (start memory file)).Sane) :
    Total platform sections memory file := by
  let keeps := fun machine : ParserMachine Memory =>
    machine.Sound ∧ ∀ count, ((next platform sections)^[count] machine).Sane
  have step : ∀ machine, keeps machine → ¬machine.finished = true →
      keeps (machine.next platform sections) ∧ ((machine.next platform sections).finished = true ∨
        (machine.next platform sections).measure < machine.measure) := by
    rintro machine ⟨sound, sane⟩ running
    rw [Bool.not_eq_true] at running
    obtain ⟨after, closer⟩ := next_advances platform sections sound running (sane 0)
    exact ⟨⟨after, fun count => sane (count + 1)⟩, closer⟩
  have begins : keeps (start memory file) := ⟨sound_start memory file, sane⟩
  obtain ⟨count, ended, kept⟩ := exists_finished measure step begins
  exact ⟨count, ended, fun before within => (kept before within).1.toSafe⟩

theorem sane_of_total {memory : Memory} {file : Bytes} (total : Total platform sections memory file)
    (count : Nat) : ((next platform sections)^[count] (start memory file)).Sane := by
  obtain ⟨last, ended, safe⟩ := total
  induction count using Nat.strongRecOn with
  | ind count before =>
      have sound := sound_iterate platform sections (sound_start memory file) count before
      by_contra wrong
      unfold Sane at wrong
      rw [not_or, not_or, Bool.not_eq_true, Bool.not_eq_true] at wrong
      obtain ⟨asserted, running, wrong⟩ := wrong
      have further : count < last := by
        by_contra behind
        have fixed := Function.iterate_fixed (next_finished platform sections ended) (count - last)
        rw [← Function.iterate_add_apply, Nat.sub_add_cancel (by omega)] at fixed
        rw [fixed, ended] at running
        cases running
      have after := Function.iterate_succ_apply' (next platform sections) count (start memory file)
      cases point : ((next platform sections)^[count] (start memory file)).point with
      | lines =>
          simp only [point, not_not] at wrong
          obtain ⟨grown, fixed, never⟩ := next_oversized platform sections sound point running wrong
          have stays := Function.iterate_fixed fixed (last - (count + 1))
          rw [← grown, ← after, ← Function.iterate_add_apply, Nat.sub_add_cancel (by omega), after,
            grown] at stays
          rw [stays, never] at ended
          cases ended
      | tokens iter =>
          simp only [point, not_not] at wrong
          have aborted := next_keyless platform sections running asserted point wrong
          rw [← after, (safe (count + 1) (by omega)).asserted] at aborted
          cases aborted

/-- `parser_run` is total exactly if no state on its way has an assignment's end without a key as
its next token, or a read with too much room before it. -/
theorem total_iff (memory : Memory) (file : Bytes) :
    Total platform sections memory file ↔
      ∀ count, ((next platform sections)^[count] (start memory file)).Sane :=
  ⟨sane_of_total platform sections, total_of_sane platform sections⟩

def loneEnd (count : Nat) : ParserMachine ConfigMemory :=
  (next { longBits := 32, resolve := fun _ => .error [] } configSections)^[count]
    (start .start (ascii "base \x7b ; \x7d\n"))

/-- The end of an assignment that has neither key nor value runs into `assert(false)`. -/
theorem lone_end_aborts :
    ¬Total { longBits := 32, resolve := fun _ => .error [] } configSections .start
      (ascii "base \x7b ; \x7d\n") := by
  rintro ⟨count, ended, safe⟩
  have early : ∀ before < 4, (loneEnd before).finished = false := by
    decide +kernel
  have aborted : (loneEnd 4).vars.aborted = true := by
    decide +kernel
  by_cases before : count < 4
  · have running : (loneEnd count).finished = true := ended
    rw [early count before] at running
    cases running
  · have asserted : (loneEnd 4).vars.aborted = false := (safe 4 (by omega)).asserted
    rw [asserted] at aborted
    cases aborted

end Runs

end ParserMachine

end ProxySet
