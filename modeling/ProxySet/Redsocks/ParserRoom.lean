import ProxySet.Redsocks.ParserBuffer

/-!
The room that `parser_run` leaves to `fgets` is told by an `int`.  As long as it can be,
the machine does what `parserRun` does, and in a file of less than 2^30 bytes it always
can.
-/

namespace ProxySet

open Lines

variable {Memory : Type}

namespace ParserMachine

def Roomy (machine : ParserMachine Memory) : Prop :=
  machine.vars.aborted = true ∨ machine.finished = true ∨
    (machine.point = .lines → ¬machine.Oversized)

section Loops

variable (platform : Platform) (sections : List (ParserSection Memory))

def RoomyOn (machine : ParserMachine Memory) : Prop :=
  ∀ count, ((next platform sections)^[count] machine).Roomy

/-- The machine comes to the end of its loop or runs into an assertion, and this is its result. -/
def Ends (memory : Memory) (file : Bytes) (result : ParserResult Memory) : Prop :=
  ∃ count, let last := (next platform sections)^[count] (start memory file)
    (last.finished = true ∨ last.vars.aborted = true) ∧
      result = { vars := last.vars.finish, tokens := last.tokens }

/-- The machine comes to the head of its loop in this state, or runs into an assertion that makes
`parserRun` leave its loops in it. -/
def Arrives (machine : ParserMachine Memory) (state : ParserState Memory) : Prop :=
  ∃ count, let last := (next platform sections)^[count] machine
    last.point = .lines ∧ last.toParserState = state ∧ last.Sound ∨
      last.vars.aborted = true ∧ last.vars = state.vars ∧ last.tokens = state.tokens

variable {platform sections} {machine : ParserMachine Memory}

theorem RoomyOn.next (roomy : machine.RoomyOn platform sections) :
    (machine.next platform sections).RoomyOn platform sections :=
  fun count => roomy (count + 1)

theorem RoomyOn.iterate (roomy : machine.RoomyOn platform sections) (count : Nat) :
    ((ParserMachine.next platform sections)^[count] machine).RoomyOn platform sections := by
  intro more
  rw [← Function.iterate_add_apply]
  exact roomy (more + count)

theorem Arrives.next {state : ParserState Memory}
    (arrives : (machine.next platform sections).Arrives platform sections state) :
    machine.Arrives platform sections state := by
  obtain ⟨count, arrived⟩ := arrives
  exact ⟨count + 1, arrived⟩

theorem arrives_here (point : machine.point = .lines) (sound : machine.Sound) :
    machine.Arrives platform sections machine.toParserState :=
  ⟨0, .inl ⟨point, rfl, sound⟩⟩

theorem next_tokens (sound : machine.Sound) {iter : Nat} (point : machine.point = .tokens iter) :
    machine.next platform sections = machine.tokenStep platform sections iter := by
  have running : machine.finished = false := by
    simp [finished, point]
  unfold ParserMachine.next
  rw [sound.asserted, running, Bool.or_self, if_neg Bool.false_ne_true]
  simp only [point]

/-- Among the tokens, only the end of an assignment without a key is no sane step. -/
theorem next_sound_or_aborts (sound : machine.Sound) {iter : Nat} (point : machine.point = .tokens iter) :
    (machine.next platform sections).Sound ∨
      machine.KeylessEnd iter ∧ (machine.next platform sections).vars.aborted = true := by
  have running : machine.finished = false := by
    simp [finished, point]
  by_cases keyless : machine.KeylessEnd iter
  · exact .inr ⟨keyless, next_keyless platform sections running sound.asserted point keyless⟩
  · refine .inl (next_advances platform sections sound running (.inr (.inr ?_))).1
    simp only [point]
    exact keyless

theorem Roomy.sane (roomy : machine.Roomy) (point : machine.point = .lines) : machine.Sane := by
  rcases roomy with aborted | ended | small
  · exact .inl aborted
  · exact .inr (.inl ended)
  · refine .inr (.inr ?_)
    simp only [point]
    exact small point

theorem tokenLoop_of_stopped {state : ParserState Memory} (stopped : state.vars.stopped = true)
    (fuel : Nat) : tokenLoop platform sections fuel state = state := by
  cases fuel with
  | zero => rfl
  | succ fuel => simp [tokenLoop, stopped]

theorem arrives_keyless (fuel : Nat) {iter : Nat}
    (stepped : machine.next platform sections = machine.tokenStep platform sections iter)
    (keyless : machine.KeylessEnd iter) (aborts : (machine.next platform sections).vars.aborted = true) :
    (machine.next platform sections).Arrives platform sections (tokenLoop platform sections (fuel + 1)
      { machine.toParserState with data := machine.data.drop iter }) := by
  obtain ⟨going, outside, -, -, copytype, rest, scanned⟩ := keyless
  have noLine : ([59] : Bytes) ≠ [47, 47] := by decide
  have noBlock : ([59] : Bytes) ≠ [47, 42] := by decide
  rw [stepped] at aborts ⊢
  simp only [tokenStep, tokenLoop, going, outside, Bool.or_self, Bool.false_eq_true, if_false,
    scanned, if_neg noLine, if_neg noBlock] at aborts ⊢
  rw [tokenLoop_of_stopped (by simp [ParserVars.stopped, aborts])]
  exact ⟨0, .inr ⟨aborts, rfl, rfl⟩⟩

theorem leave_rest (short : machine.data.length < 2 ^ 31) {rest : Bytes}
    (suffix : rest <:+ machine.data) :
    machine.leave (machine.offset rest) =
      { machine with
        data := rest
        moves := machine.moves ++ [((machine.data.length - machine.offset rest : Nat) : Int)]
        point := .lines } := by
  obtain ⟨bound, text⟩ := offset_eq machine suffix
  rw [leave_eq short bound, text]

theorem arrives_block {block : ParserMachine Memory} {rest : Bytes}
    (short : machine.data.length < 2 ^ 31) (suffix : rest <:+ machine.data)
    (enters : block =
      { machine.shift (machine.offset rest) with inComment := true, point := .tokens 0 })
    (sound : block.Sound) :
    block.Arrives platform sections
      { machine.toParserState with data := rest, inComment := true } := by
  obtain ⟨bound, text⟩ := offset_eq machine suffix
  rw [shift_eq short bound, text] at enters
  rw [enters] at sound ⊢
  refine Arrives.next ?_
  have again := (@next_sound_or_aborts _ platform sections _ sound 0 rfl).resolve_right
    (fun keyless => Bool.noConfusion keyless.1.2.1)
  rw [next_tokens sound rfl] at again ⊢
  simp only [tokenStep, Bool.or_true, if_true] at again ⊢
  rw [leave_eq sound.short (Nat.zero_le _)] at again ⊢
  exact arrives_here rfl again

/-- The steps over the tokens do what `tokenLoop` does with the text from `iter` on. -/
theorem arrives_tokenLoop (fuel : Nat) {machine : ParserMachine Memory} (sound : machine.Sound)
    {iter : Nat} (point : machine.point = .tokens iter)
    (enough : machine.data.length - iter < fuel) (roomy : machine.RoomyOn platform sections) :
    machine.Arrives platform sections (tokenLoop platform sections fuel
      { machine.toParserState with data := machine.data.drop iter }) := by
  induction fuel generalizing machine iter with
  | zero => omega
  | succ fuel ih =>
      have stepped : machine.next platform sections = _ := next_tokens sound point
      have placed := sound.placed
      unfold Placed at placed
      simp only [point] at placed
      obtain ⟨within, complete, spaced, ready⟩ := placed
      refine Arrives.next ?_
      rcases next_sound_or_aborts sound point with after | ⟨keyless, aborts⟩
      case inr => exact arrives_keyless fuel stepped keyless aborts
      unfold tokenLoop
      simp only
      unfold tokenStep at stepped
      split at stepped
      · next ends =>
        rw [if_pos ends]
        rw [stepped] at after ⊢
        rw [leave_eq sound.short within] at after ⊢
        exact arrives_here rfl after
      · next going =>
        rw [if_neg going]
        have blank := (List.dropWhile_suffix (l := machine.data.drop iter) isspace).trans
          (List.drop_suffix iter machine.data)
        cases scanned : gettoken (machine.data.drop iter) with
        | incomplete rest =>
          simp only [scanned] at stepped
          obtain rfl := gettoken_incomplete scanned
          rw [stepped, leave_rest sound.short blank] at after ⊢
          exact arrives_here rfl after
        | invalid message rest =>
          simp only [scanned] at stepped
          obtain rfl := gettoken_invalid scanned
          rw [stepped, leave_rest sound.short blank] at after ⊢
          exact arrives_here rfl after
        | token copytype text rest =>
          simp only [scanned] at stepped
          obtain ⟨suffix, shorter⟩ := gettoken_suffix scanned
          have inside := suffix.trans (List.drop_suffix iter machine.data)
          obtain ⟨bound, textEq⟩ := offset_eq machine inside
          have length := congrArg List.length textEq
          rw [List.length_drop] at shorter length
          simp only
          have later := roomy.next
          split at stepped
          · next line =>
            obtain ⟨found, here⟩ := strchr_of_mem (newline_mem_of_complete
              (complete.suffix suffix) (gettoken_rest_ne_nil complete scanned))
            rw [if_pos line, here]
            rw [stepped] at after later ⊢
            rw [skipLine_eq sound.short inside here] at after later ⊢
            obtain ⟨-, textFound⟩ := withoutLine_text inside here
            have lengthFound := congrArg List.length textFound
            rw [List.length_drop, List.length_drop] at lengthFound
            have behind := (strchr_suffix here).length_le
            have arrived := ih after rfl (by omega) later
            rw [textFound] at arrived
            exact arrived
          · next notLine =>
            rw [if_neg notLine]
            split at stepped
            · next block =>
              rw [if_pos block]
              exact arrives_block sound.short inside stepped after
            · next notBlock =>
              rw [if_neg notBlock]
              rw [stepped] at after later ⊢
              have arrived := ih after rfl (by dsimp only; omega) later
              simp only [textEq] at arrived
              exact arrived

theorem arrives_handleLine (sound : machine.enter.Sound) (point : machine.point = .lines)
    (short : machine.data.length < 2 ^ 31) (roomy : machine.enter.RoomyOn platform sections) :
    machine.enter.Arrives platform sections
      (handleLine platform sections machine.toParserState) := by
  cases inside : machine.inComment with
  | false =>
      have entered : machine.enter = { machine with point := .tokens 0 } := by
        simp [enter, inside]
      rw [entered] at sound roomy ⊢
      simp only [handleLine, inside, Bool.false_eq_true, if_false]
      exact arrives_tokenLoop (machine.data.length + 1) sound rfl (by simp) roomy
  | true =>
      simp only [handleLine, inside, if_true]
      cases found : afterComment machine.data with
      | none =>
          have entered : machine.enter = { machine with data := [], needMoreData := true } := by
            simp [enter, inside, found]
          rw [entered] at sound ⊢
          simp only [inside] at sound ⊢
          exact arrives_here point sound
      | some rest =>
          obtain ⟨bound, text⟩ := offset_eq machine (afterComment_suffix found).1
          have entered : machine.enter =
              { machine.shift (machine.offset rest) with
                inComment := false, point := .tokens 0 } := by
            simp only [enter, inside, if_true, found]
          rw [shift_eq short bound, text] at entered
          rw [entered] at sound roomy ⊢
          exact arrives_tokenLoop (rest.length + 1) sound rfl (by simp) roomy

theorem grow_toParserState : machine.grow.toParserState = growBuffer machine.toParserState := by
  unfold grow growBuffer
  split
  · rfl
  · rfl

theorem arrives_readLine (sound : machine.read.Sound) (point : machine.point = .lines)
    (room : machine.data.length < machine.size)
    (roomy : machine.size - machine.data.length < 2 ^ 31) (limit : machine.size ≤ 2 ^ 31)
    (roomy : machine.read.RoomyOn platform sections) :
    machine.read.Arrives platform sections (readLine platform sections machine.toParserState) := by
  have count : cInt (machine.size - machine.filled) =
      ((machine.size - machine.data.length : Nat) : Int) := by
    rw [filled, cInt_of_bounds (by omega) (by omega)]
    omega
  have positive : ¬((machine.size - machine.data.length : Nat) : Int) ≤ 0 := by
    omega
  have bound := fgetsLine_length_le (machine.size - machine.data.length) machine.file
  unfold readLine
  unfold read at sound roomy ⊢
  simp only [count, if_neg positive, Int.toNat_natCast] at sound roomy ⊢
  generalize fgetsLine (machine.size - machine.data.length) machine.file = line at *
  generalize fgetsEof (machine.size - machine.data.length) machine.file = eof at *
  have shorter : (cstr line).length ≤ line.length := (List.takeWhile_prefix _).length_le
  by_cases nothing : (eof && line.isEmpty) = true
  · rw [if_pos nothing] at sound ⊢
    rw [if_pos nothing]
    exact arrives_here point sound
  · rw [if_neg nothing] at sound roomy ⊢
    rw [if_neg nothing]
    by_cases ends : (cstr line).getLast? = some 10
    · rw [if_pos ends] at sound roomy ⊢
      rw [if_pos ends]
      refine arrives_handleLine sound point ?_ roomy
      rw [List.length_append]
      omega
    · rw [if_neg ends] at sound ⊢
      rw [if_neg ends]
      exact arrives_here point sound

theorem arrives_iteration (sound : machine.Sound) (point : machine.point = .lines)
    (running : machine.finished = false) (roomy : machine.RoomyOn platform sections) :
    machine.Arrives platform sections
      (parserIteration platform sections machine.toParserState) := by
  have room := sound.room
  have after := (next_advances platform sections sound running (Roomy.sane (roomy 0) point)).1
  have later := roomy.next
  refine Arrives.next ?_
  have small : ¬machine.Oversized := by
    rcases roomy 0 with aborted | ended | small
    · rw [Function.iterate_zero_apply, sound.asserted] at aborted
      cases aborted
    · rw [Function.iterate_zero_apply, running] at ended
      cases ended
    · exact small point
  obtain ⟨grown, -, -, -, -⟩ := grow_sound sound point small
  have grownPoint : machine.grow.point = .lines := by
    unfold grow
    split
    · exact point
    · exact point
  have stepped : machine.next platform sections = machine.lineStep := by
    unfold ParserMachine.next
    rw [sound.asserted, running, Bool.or_self, if_neg Bool.false_ne_true]
    simp only [point]
  unfold parserIteration
  rw [if_neg (by omega)]
  rw [stepped, lineStep, if_neg (by omega)] at after later ⊢
  simp only [← grow_toParserState]
  by_cases waiting : machine.grow.needMoreData = true
  · rw [if_pos waiting] at after later ⊢
    rw [if_pos waiting]
    have data : machine.grow.data = machine.data := by
      unfold grow
      split
      · rfl
      · rfl
    have roomy : machine.grow.size - machine.grow.data.length < 2 ^ 31 := by
      by_contra large
      rw [data] at large
      have grows : machine.grow.needMoreData = machine.needMoreData := by
        unfold grow
        split
        · rfl
        · rfl
      exact small ⟨grows ▸ waiting, Nat.le_of_not_lt large⟩
    exact arrives_readLine after grownPoint grown.room roomy grown.sizeBound later
  · rw [if_neg waiting] at after later ⊢
    rw [if_neg waiting]
    exact arrives_handleLine after grownPoint grown.short later

theorem parserLoop_of_done {state : ParserState Memory} (done : state.done = true) (fuel : Nat) :
    parserLoop platform sections fuel state = state := by
  cases fuel with
  | zero => rfl
  | succ fuel => simp [parserLoop, done]

theorem arrives_parserLoop (fuel : Nat) {machine : ParserMachine Memory} (sound : machine.Sound)
    (point : machine.point = .lines) (roomy : machine.RoomyOn platform sections) :
    machine.Arrives platform sections
      (parserLoop platform sections fuel machine.toParserState) := by
  induction fuel generalizing machine with
  | zero => exact arrives_here point sound
  | succ fuel ih =>
      cases ended : machine.done with
      | true =>
          simp only [parserLoop, ended, if_true]
          exact arrives_here point sound
      | false =>
          have running : machine.finished = false := by
            rw [finished, ended, Bool.and_false]
          simp only [parserLoop, ended, Bool.false_eq_true, if_false]
          obtain ⟨count, ⟨atLines, same, later⟩ | ⟨aborts, sameVars, sameTokens⟩⟩ :=
            arrives_iteration sound point running roomy
          · obtain ⟨further, arrived⟩ := ih later atLines (roomy.iterate count)
            rw [same, ← Function.iterate_add_apply] at arrived
            exact ⟨further + count, arrived⟩
          · have stops : (parserIteration platform sections machine.toParserState).done = true := by
              simp [ParserState.done, ParserVars.stopped, ← sameVars, aborts]
            rw [parserLoop_of_done stops]
            exact ⟨count, .inr ⟨aborts, sameVars, sameTokens⟩⟩

/-- Where all reads are roomy, the machine ends as `parserRun` does. -/
theorem ends_as_parserRun {memory : Memory} {file : Bytes} (nulFree : 0 ∉ file)
    (roomy : (start memory file).RoomyOn platform sections) :
    Ends platform sections memory file (parserRun platform sections memory file) := by
  have same : (start memory file).toParserState = parserStart memory file := rfl
  have ended := parserLoop_done platform sections memory nulFree
  obtain ⟨count, ⟨point, state, sound⟩ | ⟨aborts, sameVars, sameTokens⟩⟩ :=
    arrives_parserLoop (parserFuel file) (sound_start memory file) rfl roomy
  · rw [← same, ← state] at ended
    refine ⟨count, .inl ?_, ?_⟩
    · rw [finished, point, sound.asserted, ended]
      rfl
    · rw [parserRun, ← same, ← state]
  · refine ⟨count, .inr aborts, ?_⟩
    rw [parserRun, sameVars, sameTokens, same]

end Loops

/-! ### Short files -/

section Short

variable {platform : Platform} {sections : List (ParserSection Memory)}
  {machine after : ParserMachine Memory}

structure Shrinks (machine after : ParserMachine Memory) : Prop where
  data : after.data.length ≤ machine.data.length
  file : after.file = machine.file
  size : after.size = machine.size
  space : after.needMoreSpace = machine.needMoreSpace

/-- What is in the buffer and what is left of the file fit 2^30 bytes together.  The buffer is only
doubled when it is full, so it is not larger. -/
structure Short (machine : ParserMachine Memory) : Prop where
  text : machine.data.length + machine.file.length + 1 < 2 ^ 30
  power : ∃ power ≤ 30, machine.size = 2 ^ power
  full : machine.needMoreSpace = true → machine.eof = true ∨ machine.size < 2 ^ 30
  nulFree : 0 ∉ machine.file

theorem Short.shrinks (short : machine.Short) (shrinks : machine.Shrinks after)
    (spaced : machine.needMoreSpace = false) : after.Short where
  text := by
    have data := shrinks.data
    have text := short.text
    rw [shrinks.file]
    omega
  power := by
    rw [shrinks.size]
    exact short.power
  full := by
    rw [shrinks.space, spaced]
    nofun
  nulFree := by
    rw [shrinks.file]
    exact short.nulFree

theorem drop_shrinks (count : Nat) (moves : List Int) :
    machine.Shrinks { machine with data := machine.data.drop count, moves := moves } :=
  ⟨(List.drop_sublist _ _).length_le, rfl, rfl, rfl⟩

theorem shift_shrinks (offset : Nat) : machine.Shrinks (machine.shift offset) :=
  drop_shrinks _ _

theorem Shrinks.goes (shrinks : machine.Shrinks after) (vars : ParserVars Memory)
    (inComment needMoreData : Bool) (point : ParserPoint) :
    machine.Shrinks { after with
      vars := vars, inComment := inComment, needMoreData := needMoreData, point := point } :=
  ⟨shrinks.data, shrinks.file, shrinks.size, shrinks.space⟩

theorem enter_shrinks : machine.Shrinks machine.enter := by
  unfold enter
  split
  · split
    · exact (shift_shrinks _).goes _ _ _ _
    · exact ⟨Nat.zero_le _, rfl, rfl, rfl⟩
  · exact ⟨Nat.le_refl _, rfl, rfl, rfl⟩

theorem leave_shrinks (iter : Nat) : machine.Shrinks (machine.leave iter) := by
  have left : ∀ {after : ParserMachine Memory}, machine.Shrinks after →
      machine.Shrinks { after with point := .lines } := fun shrinks =>
    ⟨shrinks.data, shrinks.file, shrinks.size, shrinks.space⟩
  exact left (shift_shrinks iter)

theorem skipLine_shrinks (rest : Bytes) : machine.Shrinks (machine.skipLine rest) := by
  unfold skipLine
  split
  · exact ⟨Nat.le_refl _, rfl, rfl, rfl⟩
  · next found here =>
    refine ⟨?_, rfl, rfl, rfl⟩
    have behind := (strchr_suffix here).length_le
    simp only [offset, List.length_append, List.length_take, List.length_drop]
    omega

theorem tokenStep_shrinks (iter : Nat) :
    machine.Shrinks (machine.tokenStep platform sections iter) := by
  unfold tokenStep
  split
  · exact leave_shrinks _
  · split
    · exact (leave_shrinks _).goes _ _ _ _
    · exact (leave_shrinks _).goes _ _ _ _
    · split
      · exact skipLine_shrinks _
      · split
        · exact (shift_shrinks _).goes _ _ _ _
        · exact ⟨Nat.le_refl _, rfl, rfl, rfl⟩

theorem Short.size_le (short : machine.Short) : machine.size ≤ 2 ^ 30 := by
  obtain ⟨power, below, size⟩ := short.power
  rw [size]
  exact Nat.pow_le_pow_right (by decide) below

/-- Space is only asked for when the buffer is full of text, or at the end of the file. -/
theorem Short.read (short : machine.Short) (room : machine.data.length < machine.size)
    (spaced : machine.needMoreSpace = false) : machine.read.Short := by
  have limit := short.size_le
  have text := short.text
  have count : cInt (machine.size - machine.filled) =
      ((machine.size - machine.data.length : Nat) : Int) := by
    rw [filled, cInt_of_bounds (by omega) (by omega)]
    omega
  have positive : ¬((machine.size - machine.data.length : Nat) : Int) ≤ 0 := by
    omega
  have split := fgetsLine_split (machine.size - machine.data.length) machine.file
  have free : 0 ∉ fgetsLine (machine.size - machine.data.length) machine.file ∧
      0 ∉ machine.file.drop (fgetsLine (machine.size - machine.data.length) machine.file).length := by
    have nulFree := short.nulFree
    rw [← split, List.mem_append, not_or] at nulFree
    exact nulFree
  have eofEq : fgetsEof (machine.size - machine.data.length) machine.file =
      (decide ((fgetsLine (machine.size - machine.data.length) machine.file).length <
          machine.size - machine.data.length - 1) &&
        (fgetsLine (machine.size - machine.data.length) machine.file).getLast? != some 10) := rfl
  unfold ParserMachine.read
  simp only [count, if_neg positive, Int.toNat_natCast, cstr_of_nulFree free.1]
  generalize machine.file.drop
    (fgetsLine (machine.size - machine.data.length) machine.file).length = rest at *
  generalize fgetsLine (machine.size - machine.data.length) machine.file = line at *
  generalize fgetsEof (machine.size - machine.data.length) machine.file = eof at *
  have sizes : (machine.data ++ line).length + rest.length + 1 < 2 ^ 30 := by
    rw [← split, List.length_append] at text
    rw [List.length_append]
    omega
  split
  · exact ⟨short.text, short.power, by simp [spaced], short.nulFree⟩
  · split
    · have longer : Short { machine with
          data := machine.data ++ line, file := rest, eof := eof, needMoreData := false } :=
        ⟨sizes, short.power, by simp [spaced], free.2⟩
      exact longer.shrinks enter_shrinks spaced
    · next ends =>
      refine ⟨sizes, short.power, fun _ => ?_, free.2⟩
      dsimp only
      cases ended : eof with
      | true => exact .inl rfl
      | false =>
          have unmarked : (line.getLast? != some 10) = true := by simpa using ends
          have filled : ¬line.length < machine.size - machine.data.length - 1 := by
            simpa [ended, unmarked] using eofEq
          rw [List.length_append] at sizes
          right
          omega

theorem Short.grow (short : machine.Short) (room : machine.data.length < machine.size)
    (going : machine.eof = false) :
    machine.grow.Short ∧ machine.grow.needMoreSpace = false ∧
      machine.grow.data.length < machine.grow.size := by
  unfold ParserMachine.grow
  split
  · next full =>
    have below := (short.full full).resolve_left (by simp [going])
    obtain ⟨power, -, size⟩ := short.power
    have smaller : power < 30 := (Nat.pow_lt_pow_iff_right (by decide)).mp (size ▸ below)
    refine ⟨⟨short.text, ⟨power + 1, smaller, ?_⟩, nofun, short.nulFree⟩, rfl, ?_⟩
    · dsimp only
      rw [size, Nat.pow_succ]
    · dsimp only
      omega
  · next enough => exact ⟨short, by simpa using enough, room⟩

theorem going_of_running (sound : machine.Sound) (running : machine.finished = false)
    (point : machine.point = .lines) : machine.eof = false := by
  simp only [finished, point, sound.asserted, ParserState.done, Bool.not_false, decide_true,
    Bool.and_true, Bool.true_and, Bool.or_eq_false_iff] at running
  exact running.2

theorem Short.next (short : machine.Short) (sound : machine.Sound)
    (running : machine.finished = false) : (machine.next platform sections).Short := by
  have placed := sound.placed
  unfold Placed at placed
  unfold ParserMachine.next
  rw [sound.asserted, running, Bool.or_self, if_neg Bool.false_ne_true]
  cases point : machine.point with
  | tokens iter =>
      simp only [point] at placed ⊢
      exact short.shrinks (tokenStep_shrinks iter) placed.2.2.1
  | lines =>
      have room := sound.room
      obtain ⟨grown, spaced, roomy⟩ := short.grow room (going_of_running sound running point)
      simp only
      unfold lineStep
      rw [if_neg (by omega)]
      split
      · exact grown.read roomy spaced
      · exact grown.shrinks enter_shrinks spaced

theorem Short.roomy (short : machine.Short) (sound : machine.Sound) : machine.Roomy := by
  cases running : machine.finished with
  | true => exact .inr (.inl running)
  | false =>
      refine .inr (.inr fun point => ?_)
      rintro ⟨-, large⟩
      have limit := (short.grow sound.room (going_of_running sound running point)).1.size_le
      omega

theorem short_start (memory : Memory) {file : Bytes} (nulFree : 0 ∉ file)
    (short : file.length + 1 < 2 ^ 30) : (start memory file).Short where
  text := by simpa [start, parserStart] using short
  power := ⟨8, by decide, rfl⟩
  full := nofun
  nulFree := nulFree

theorem Short.sound_next (short : machine.Short) (sound : machine.Sound) :
    (machine.next platform sections).vars.aborted = true ∨
      (machine.next platform sections).Sound ∧ (machine.next platform sections).Short := by
  cases running : machine.finished with
  | true =>
      rw [next_finished platform sections running]
      exact .inr ⟨sound, short⟩
  | false =>
      cases point : machine.point with
      | lines =>
          have sane := (short.roomy sound).sane point
          have after := (next_advances platform sections sound running sane).1
          exact .inr ⟨after, short.next sound running⟩
      | tokens iter =>
          rcases next_sound_or_aborts sound point with after | ⟨-, aborts⟩
          · exact .inr ⟨after, short.next sound running⟩
          · exact .inl aborts

theorem roomyOn_of_short (memory : Memory) {file : Bytes} (nulFree : 0 ∉ file)
    (short : file.length + 1 < 2 ^ 30) : (start memory file).RoomyOn platform sections := by
  have kept : ∀ count, ((ParserMachine.next platform sections)^[count] (start memory file)).vars.aborted
      = true ∨ ((ParserMachine.next platform sections)^[count] (start memory file)).Sound ∧
        ((ParserMachine.next platform sections)^[count] (start memory file)).Short := by
    intro count
    induction count with
    | zero => exact .inr ⟨sound_start memory file, short_start memory nulFree short⟩
    | succ count ih =>
        rw [Function.iterate_succ_apply']
        rcases ih with aborts | ⟨sound, small⟩
        · left
          rw [ParserMachine.next, aborts, Bool.true_or, if_pos rfl]
          exact aborts
        · exact small.sound_next sound
  intro count
  rcases kept count with aborts | ⟨sound, small⟩
  · exact .inl aborts
  · exact small.roomy sound

/-- On a short file, the machine that counts with `int` ends as `parserRun` does. -/
theorem ends_of_short (memory : Memory) {file : Bytes} (nulFree : 0 ∉ file)
    (short : file.length + 1 < 2 ^ 30) :
    Ends platform sections memory file (parserRun platform sections memory file) :=
  ends_as_parserRun nulFree (roomyOn_of_short memory nulFree short)

end Short

end ParserMachine

end ProxySet
