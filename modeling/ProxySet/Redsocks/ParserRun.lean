import ProxySet.Redsocks.ParserLex

/-!
`parser_run` on a whole file: its loop over lines, growing buffer and carried
comment comes to the end and has then handled exactly the tokens of the file's
whole lines, up to the first that stops it.
-/

namespace ProxySet

open Lines

variable {Memory : Type} (platform : Platform) (sections : List (ParserSection Memory))

def feed (vars : ParserVars Memory) (seen : List Bytes) :
    List Bytes → ParserVars Memory × List Bytes
  | [] => (vars, seen)
  | text :: rest =>
      if vars.stopped then (vars, seen)
      else feed (vars.token platform sections text) (seen ++ [text]) rest

def ParserVars.atEnding (vars : ParserVars Memory) : Ending → ParserVars Memory
  | .rest _ => vars
  | .invalid message => if vars.stopped then vars else vars.parserError message

def Reading.texts (reading : Reading) : List Bytes :=
  reading.tokens.map (·.text)

def outcome (vars : ParserVars Memory) (seen : List Bytes) (reading : Reading) :
    ParserVars Memory × List Bytes :=
  ((feed platform sections vars seen reading.texts).1.atEnding reading.ending,
    (feed platform sections vars seen reading.texts).2)

variable {platform sections}

theorem feed_of_stopped {vars : ParserVars Memory} (stopped : vars.stopped = true)
    (seen texts : List Bytes) : feed platform sections vars seen texts = (vars, seen) := by
  cases texts with
  | nil => rfl
  | cons text rest => simp [feed, stopped]

theorem outcome_of_stopped {vars : ParserVars Memory} (stopped : vars.stopped = true)
    (seen : List Bytes) (reading : Reading) :
    outcome platform sections vars seen reading = (vars, seen) := by
  unfold outcome
  rw [feed_of_stopped stopped]
  cases reading.ending with
  | rest text => rfl
  | invalid message => simp [ParserVars.atEnding, stopped]

theorem outcome_push {vars : ParserVars Memory} (running : vars.stopped = false)
    (seen : List Bytes) (token : Token) (reading : Reading) :
    outcome platform sections vars seen (reading.push token) =
      outcome platform sections (vars.token platform sections token.text) (seen ++ [token.text])
        reading := by
  simp [outcome, Reading.push, Reading.texts, feed, running]

@[simp] theorem outcome_rest (vars : ParserVars Memory) (seen : List Bytes) (rest : Bytes) :
    outcome platform sections vars seen ⟨[], .rest rest⟩ = (vars, seen) :=
  rfl

@[simp] theorem stopped_parserError (vars : ParserVars Memory) (message : Bytes) :
    (vars.parserError message).stopped = true := by
  simp [ParserVars.stopped, ParserVars.error, ParserVars.parserError]

/-! ### The loop over the tokens of the buffer -/

namespace ParserState

def opened (state : ParserState Memory) : Bytes :=
  if state.inComment then [47, 42] else []

variable (platform sections) in
/-- What the parser comes to when `text` is what it has not handled yet. -/
def comes (state : ParserState Memory) (text : Bytes) : ParserVars Memory × List Bytes :=
  outcome platform sections state.vars state.tokens (readText everyMark (state.opened ++ text))

variable (platform sections) in
/-- Nothing can be taken from the lines that are in the buffer. -/
def Stalled (state : ParserState Memory) : Prop :=
  state.comes platform sections (whole 10 state.data) = (state.vars, state.tokens)

theorem comes_of_stopped {state : ParserState Memory} (stopped : state.vars.stopped = true)
    (text : Bytes) : state.comes platform sections text = (state.vars, state.tokens) :=
  outcome_of_stopped stopped _ _

theorem stalled_of_stopped {state : ParserState Memory} (stopped : state.vars.stopped = true) :
    state.Stalled platform sections :=
  comes_of_stopped stopped _

end ParserState

variable (platform sections) in
/-- What handling the lines in the buffer does, whatever lines are to come. -/
structure Handles (before after : ParserState Memory) : Prop where
  comes : ∀ more, before.comes platform sections (before.data ++ more) =
    after.comes platform sections (after.data ++ more)
  complete : Complete 10 after.data
  shorter : after.data.length ≤ before.data.length
  size : after.size = before.size
  file : after.file = before.file
  eof : after.eof = before.eof
  needMoreSpace : after.needMoreSpace = before.needMoreSpace
  stalled : after.needMoreData = true → after.Stalled platform sections
  waits : after.needMoreData = false →
    after.vars.stopped = true ∨ after.inComment = true

theorem Handles.after_step {before after : ParserState Memory} {data : Bytes}
    {vars : ParserVars Memory} {tokens : List Bytes} {inComment : Bool}
    (comes : ∀ more, before.comes platform sections (before.data ++ more) =
      ParserState.comes platform sections
        { before with data := data, vars := vars, tokens := tokens, inComment := inComment }
        (data ++ more))
    (shorter : data.length ≤ before.data.length)
    (second : Handles platform sections
      { before with data := data, vars := vars, tokens := tokens, inComment := inComment } after) :
    Handles platform sections before after where
  comes more := (comes more).trans (second.comes more)
  complete := second.complete
  shorter := second.shorter.trans shorter
  size := second.size
  file := second.file
  eof := second.eof
  needMoreSpace := second.needMoreSpace
  stalled := second.stalled
  waits := second.waits

theorem lexStep_of_gettoken {text word iter : Bytes} {copytype : Copytype}
    (found : gettoken text = .token copytype word iter) (notLine : word ≠ [47, 47])
    (notBlock : word ≠ [47, 42]) : lexStep everyMark text = .token ⟨copytype, word⟩ iter := by
  simp [lexStep, found, notLine, notBlock]

theorem readText_blockMark (text : Bytes) :
    readText everyMark (47 :: 42 :: text) =
      match afterComment text with
      | some rest => readText everyMark rest
      | none => ⟨[], .rest (47 :: 42 :: text)⟩ := by
  have scanned : gettoken (47 :: 42 :: text) = .token .plainstr [47, 42] text :=
    tokenAt_of_form (.mark (.inr rfl))
  rw [readText_step, lexStep, scanned]
  simp only [everyMark, List.cons.injEq, and_true, true_and, ↓reduceIte]
  cases afterComment text <;> rfl

section

variable {state : ParserState Memory}

theorem incomplete_handles {iter : Bytes} (complete : Complete 10 state.data)
    (outside : state.inComment = false) (scanned : gettoken state.data = .incomplete iter) :
    Handles platform sections state { state with data := iter, needMoreData := true } := by
  have step : lexStep everyMark state.data = .stop (.rest iter) := by simp [lexStep, scanned]
  have goes := fun more => lexStep_rest_append more (rfl : everyMark .plainstr = true) complete step
  have again := (goes []).1
  simp only [List.append_nil] at again
  refine ⟨fun more => ?_, (goes []).2, ?_, rfl, rfl, rfl, rfl, fun _ => ?_, fun wait => Bool.noConfusion wait⟩
  · simp only [ParserState.comes, ParserState.opened, outside, Bool.false_eq_true, ↓reduceIte,
      List.nil_append]
    rw [readText_congr (goes more).1]
  · rw [gettoken_incomplete scanned]
    exact (List.dropWhile_suffix _).length_le
  · simp only [ParserState.Stalled, ParserState.comes, ParserState.opened, outside,
      Bool.false_eq_true, ↓reduceIte, List.nil_append]
    rw [(goes []).2.whole_eq, ← readText_congr again, readText_step, step]
    rfl

theorem invalid_handles {message iter : Bytes} (complete : Complete 10 state.data)
    (outside : state.inComment = false) (running : state.vars.stopped = false)
    (scanned : gettoken state.data = .invalid message iter) :
    Handles platform sections state
      { state with data := iter, vars := state.vars.parserError message, needMoreData := true } := by
  have step : lexStep everyMark state.data = .stop (.invalid message) := by simp [lexStep, scanned]
  refine ⟨fun more => ?_, ?_, ?_, rfl, rfl, rfl, rfl, fun _ => ?_, fun wait => Bool.noConfusion wait⟩
  · refine Eq.trans ?_ (ParserState.comes_of_stopped (stopped_parserError _ _) _).symm
    simp only [ParserState.comes, ParserState.opened, outside, Bool.false_eq_true, ↓reduceIte,
      List.nil_append]
    rw [readText_step, lexStep_invalid_append more complete step]
    simp [outcome, feed, Reading.texts, ParserVars.atEnding, running]
  · rw [gettoken_invalid scanned]
    exact dropWhile_complete complete
  · rw [gettoken_invalid scanned]
    exact (List.dropWhile_suffix _).length_le
  · exact ParserState.stalled_of_stopped (stopped_parserError _ _)

theorem blockMark_handles {copytype : Copytype} {iter : Bytes} (complete : Complete 10 state.data)
    (outside : state.inComment = false) (ready : state.needMoreData = false)
    (scanned : gettoken state.data = .token copytype [47, 42] iter) :
    Handles platform sections state { state with data := iter, inComment := true } := by
  have inside := gettoken_suffix scanned
  refine ⟨fun more => ?_, complete.suffix inside.1, inside.2.le, rfl, rfl, rfl, rfl, fun wait => ?_,
    fun _ => .inr rfl⟩
  · simp only [ParserState.comes, ParserState.opened, outside, Bool.false_eq_true, ↓reduceIte,
      List.nil_append]
    have reread : gettoken (47 :: 42 :: (iter ++ more)) = .token .plainstr [47, 42] (iter ++ more) :=
      tokenAt_of_form (.mark (.inr rfl))
    have same : lexStep everyMark (state.data ++ more) =
        lexStep everyMark ([47, 42] ++ (iter ++ more)) := by
      simp [lexStep, gettoken_append more scanned, reread, everyMark]
    rw [readText_congr same]
  · simp [ready] at wait

theorem comes_of_goes (token? : Option Token) {iter : Bytes} (outside : state.inComment = false)
    (running : state.vars.stopped = false)
    (step : lexStep everyMark state.data = token?.elim (.skip iter) (.token · iter)) (more : Bytes) :
    state.comes platform sections (state.data ++ more) =
      ParserState.comes platform sections
        { state with
          data := iter
          vars := token?.elim state.vars (state.vars.token platform sections ·.text)
          tokens := token?.elim state.tokens (state.tokens ++ [·.text]) } (iter ++ more) := by
  have goes := lexStep_goes_append token? more step
  simp only [ParserState.comes, ParserState.opened, outside, Bool.false_eq_true, ↓reduceIte,
    List.nil_append]
  rw [readText_step (state.data ++ more), goes]
  cases token? with
  | none => rfl
  | some token => exact outcome_push running _ token _

end

/-- The loop over the tokens of the buffer takes what the lexer takes, up to a comment. -/
theorem tokenLoop_handles (fuel : Nat) (state : ParserState Memory)
    (enough : state.data.length < fuel) (complete : Complete 10 state.data)
    (outside : state.inComment = false) (ready : state.needMoreData = false) :
    Handles platform sections state (tokenLoop platform sections fuel state) := by
  induction fuel generalizing state with
  | zero => omega
  | succ fuel ih =>
      cases stopped : state.vars.stopped with
      | true =>
          simp only [tokenLoop, stopped, Bool.true_or, ↓reduceIte]
          refine ⟨fun more => rfl, complete, Nat.le_refl _, rfl, rfl, rfl, rfl, ?_,
            fun _ => .inl stopped⟩
          exact fun _ => ParserState.stalled_of_stopped stopped
      | false =>
          rw [tokenLoop, if_neg (by simp [stopped, outside])]
          cases scanned : gettoken state.data with
          | incomplete iter => exact incomplete_handles complete outside scanned
          | invalid message iter => exact invalid_handles complete outside stopped scanned
          | token copytype word iter =>
              have ends := complete.suffix (gettoken_suffix scanned).1
              have shorter := (gettoken_suffix scanned).2
              simp only
              by_cases line : word = [47, 47]
              · subst line
                have nonempty := gettoken_rest_ne_nil complete scanned
                obtain ⟨newline, here⟩ := strchr_of_mem (newline_mem_of_complete ends nonempty)
                have behind := (List.drop_suffix 1 newline).trans (strchr_suffix here)
                have bound := behind.length_le
                have step : lexStep everyMark state.data = .skip (newline.drop 1) := by
                  simp [lexStep, scanned, everyMark, here]
                simp only [↓reduceIte, here]
                refine .after_step (comes_of_goes none outside stopped step)
                  (by omega) ?_
                exact ih _ (by simp only; omega) (ends.suffix behind) outside ready
              · rw [if_neg line]
                by_cases block : word = [47, 42]
                · subst block
                  exact blockMark_handles complete outside ready scanned
                · rw [if_neg block]
                  have step := lexStep_of_gettoken scanned line block
                  refine .after_step (comes_of_goes (some ⟨copytype, word⟩) outside stopped
                    step) (by omega) ?_
                  exact ih _ (by simp only; omega) ends outside ready

theorem handleLine_handles (state : ParserState Memory) (complete : Complete 10 state.data)
    (ready : state.needMoreData = false) :
    Handles platform sections state (handleLine platform sections state) := by
  cases inside : state.inComment with
  | false =>
      simp only [handleLine, inside, Bool.false_eq_true, ↓reduceIte]
      exact tokenLoop_handles _ state (by omega) complete inside ready
  | true =>
      simp only [handleLine, inside, ↓reduceIte]
      cases found : afterComment state.data with
      | some rest =>
          have shorter := afterComment_suffix found
          have comes : ∀ more, state.comes platform sections (state.data ++ more) =
              ParserState.comes platform sections { state with data := rest, inComment := false }
                (rest ++ more) := by
            intro more
            simp only [ParserState.comes, ParserState.opened, inside, Bool.false_eq_true, ↓reduceIte,
              List.cons_append, List.nil_append, readText_blockMark,
              afterComment_append more found]
          refine .after_step comes shorter.2.le ?_
          exact tokenLoop_handles _ _ (by simp) (complete.suffix shorter.1) rfl ready
      | none =>
          refine ⟨fun more => ?_, complete_nil, Nat.zero_le _, rfl, rfl, rfl, rfl, fun _ => ?_,
            fun wait => Bool.noConfusion wait⟩
          · simp only [ParserState.comes, ParserState.opened, inside, ↓reduceIte, List.cons_append,
              List.nil_append, readText_blockMark]
            rw [afterComment_none_append more complete found]
            cases afterComment more <;> rfl
          · simp only [ParserState.Stalled, ParserState.comes, ParserState.opened, ↓reduceIte,
              complete_nil.whole_eq, List.cons_append, List.nil_append, readText_blockMark]
            rfl

variable (platform sections) in
theorem handleLine_shorter {state : ParserState Memory} (inside : state.inComment = true)
    (complete : Complete 10 state.data) (ready : state.needMoreData = false)
    (again : (handleLine platform sections state).needMoreData = false) :
    (handleLine platform sections state).data.length < state.data.length := by
  simp only [handleLine, inside, ↓reduceIte] at again ⊢
  cases found : afterComment state.data with
  | some rest =>
      have shorter := afterComment_suffix found
      have handled : Handles platform sections { state with data := rest, inComment := false } _ :=
        tokenLoop_handles (rest.length + 1) _ (by simp) (complete.suffix shorter.1) rfl ready
      exact lt_of_le_of_lt handled.shorter shorter.2
  | none => simp [found] at again

/-! ### Reading a line -/

theorem untilNewline_front (text : Bytes) : untilNewline text <+: text := by
  induction text with
  | nil => exact List.prefix_rfl
  | cons byte rest ih =>
      simp only [untilNewline]
      split
      · next newline => exact ⟨rest, by simp [newline]⟩
      · exact (List.prefix_cons_inj byte).mpr ih

theorem untilNewline_unmarked {text : Bytes} (open_ : (untilNewline text).getLast? ≠ some 10) :
    10 ∉ untilNewline text ∧ untilNewline text = text := by
  induction text with
  | nil => simp [untilNewline]
  | cons byte rest ih =>
      by_cases newline : byte = 10
      · simp [untilNewline, newline] at open_
      · simp only [untilNewline, newline, ↓reduceIte] at open_ ⊢
        have inner : (untilNewline rest).getLast? ≠ some 10 := by
          intro ends
          apply open_
          rw [List.getLast?_cons, ends]
          rfl
        obtain ⟨unmarked, same⟩ := ih inner
        rw [same] at unmarked
        simp [unmarked, same, Ne.symm newline]

theorem fgetsLine_split (size : Nat) (file : Bytes) :
    fgetsLine size file ++ file.drop (fgetsLine size file).length = file :=
  List.prefix_iff_eq_append.mp ((untilNewline_front _).trans (List.take_prefix _ _))

theorem fgetsLine_length_le (size : Nat) (file : Bytes) : (fgetsLine size file).length ≤ size - 1 := by
  have front := (untilNewline_front (file.take (size - 1))).length_le
  simp only [List.length_take] at front
  unfold fgetsLine
  omega

theorem fgetsEof_drop {size : Nat} {file : Bytes} (eof : fgetsEof size file = true) :
    file.drop (fgetsLine size file).length = [] := by
  simp only [fgetsEof, Bool.and_eq_true, decide_eq_true_eq, bne_iff_ne, ne_eq] at eof
  have all := (untilNewline_unmarked eof.2).2
  have short := eof.1
  unfold fgetsLine at short ⊢
  rw [all] at short ⊢
  simp only [List.length_take] at short
  rw [List.length_take, Nat.min_eq_right (by omega)]
  exact List.drop_length

theorem cstr_of_nulFree {text : Bytes} (nulFree : 0 ∉ text) : cstr text = text := by
  apply List.takeWhile_eq_self_iff.mpr
  intro byte member
  simp only [decide_eq_true_eq]
  rintro rfl
  exact nulFree member

/-! ### The loop over the lines -/

variable (platform sections) in
structure ParserInv (state : ParserState Memory) : Prop where
  room : state.data.length < state.size
  space : state.needMoreSpace = true → state.needMoreData = true
  waits : state.needMoreData = false →
    (state.vars.stopped = true ∨ state.inComment = true) ∧ Complete 10 state.data
  stalled : state.needMoreData = true → state.Stalled platform sections
  ended : state.eof = true → state.file = [] ∧ state.needMoreData = true
  nulFree : 0 ∉ state.file

namespace ParserState

variable (platform sections) in
def result (state : ParserState Memory) : ParserVars Memory × List Bytes :=
  state.comes platform sections (whole 10 (state.data ++ state.file))

def measure (state : ParserState Memory) : Nat :=
  4 * state.file.length + state.data.length + (if state.needMoreData then 0 else 1) +
    (if state.needMoreSpace then 0 else 1)

end ParserState

theorem result_of_done {state : ParserState Memory} (inv : ParserInv platform sections state)
    (done : state.done = true) : state.result platform sections = (state.vars, state.tokens) := by
  simp only [ParserState.done, Bool.or_eq_true] at done
  rcases done with stopped | eof
  · exact ParserState.comes_of_stopped stopped _
  · obtain ⟨empty, waiting⟩ := inv.ended eof
    have stalled := inv.stalled waiting
    rw [ParserState.result, empty, List.append_nil]
    exact stalled

variable (platform sections) in
/-- One iteration keeps the invariant and the result, and comes closer to the end. -/
structure Advances (before after : ParserState Memory) : Prop where
  inv : ParserInv platform sections after
  result : after.result platform sections = before.result platform sections
  closer : after.done = true ∨ after.measure < before.measure

variable (platform sections) in
theorem handleLine_inv (state : ParserState Memory) (complete : Complete 10 state.data)
    (ready : state.needMoreData = false) (room : state.data.length < state.size)
    (spaced : state.needMoreSpace = false) (going : state.eof = false) (nulFree : 0 ∉ state.file) :
    ParserInv platform sections (handleLine platform sections state) ∧
      (handleLine platform sections state).result platform sections =
        state.result platform sections := by
  have handled : Handles platform sections state _ := handleLine_handles state complete ready
  refine ⟨⟨?_, ?_, ?_, handled.stalled, ?_, ?_⟩, ?_⟩
  · rw [handled.size]
    exact lt_of_le_of_lt handled.shorter room
  · intro space
    simp [handled.needMoreSpace, spaced] at space
  · exact fun wait => ⟨handled.waits wait, handled.complete⟩
  · intro eof
    simp [handled.eof, going] at eof
  · rwa [handled.file]
  · rw [ParserState.result, ParserState.result, complete.whole_append, handled.complete.whole_append,
      handled.file]
    exact (handled.comes _).symm

variable (platform sections) in
structure ReadsOn (before after : ParserState Memory) : Prop where
  inv : ParserInv platform sections after
  result : after.result platform sections = before.result platform sections
  closer : after.done = true ∨ after.measure < before.measure
  closerByTwo : 1 < before.size - before.data.length →
    after.done = true ∨ after.measure + 1 < before.measure

def ParserState.withLine (state : ParserState Memory) (line rest : Bytes) : ParserState Memory :=
  { state with data := state.data ++ line, file := rest, eof := false, needMoreData := false }

theorem readsOn_line {state : ParserState Memory} {line rest : Bytes}
    (inv : ParserInv platform sections state) (waiting : state.needMoreData = true)
    (spaced : state.needMoreSpace = false) (split : line ++ rest = state.file)
    (room : state.data.length + line.length < state.size) (ends : line.getLast? = some 10) :
    ReadsOn platform sections state (handleLine platform sections (state.withLine line rest)) := by
  have complete : Complete 10 (state.data ++ line) :=
    complete_of_getLast? (by simp [List.getLast?_append, ends])
  have nulFree : 0 ∉ rest := fun nul => inv.nulFree (split ▸ List.mem_append_right _ nul)
  have roomy : (state.withLine line rest).data.length < state.size := by
    simpa [ParserState.withLine] using room
  obtain ⟨kept, same⟩ := handleLine_inv platform sections (state.withLine line rest) complete rfl
    roomy spaced rfl nulFree
  have handled : Handles platform sections (state.withLine line rest) _ :=
    handleLine_handles _ complete rfl
  have shorter := handled.shorter
  have sizes : line.length + rest.length = state.file.length := by
    rw [← split, List.length_append]
  have nonempty : 0 < line.length := List.length_pos_iff.mpr (by rintro rfl; simp at ends)
  have closer : (handleLine platform sections (state.withLine line rest)).measure + 1 <
      state.measure := by
    have sameFile := handled.file
    have sameSpace := handled.needMoreSpace
    generalize handleLine platform sections (state.withLine line rest) = after at *
    simp only [ParserState.withLine, List.length_append] at shorter sameFile sameSpace
    simp only [ParserState.measure, sameFile, sameSpace, waiting, spaced, ↓reduceIte]
    split <;> omega
  refine ⟨kept, ?_, .inr (by omega), fun _ => .inr closer⟩
  rw [same, ParserState.result, ParserState.result, ← split, ← List.append_assoc]
  rfl

theorem readsOn_partial {state : ParserState Memory} {line rest : Bytes} {eof : Bool}
    (inv : ParserInv platform sections state) (waiting : state.needMoreData = true)
    (spaced : state.needMoreSpace = false) (split : line ++ rest = state.file)
    (room : state.data.length + line.length < state.size) (unmarked : 10 ∉ line)
    (ended : eof = true → rest = [])
    (nonempty : 1 < state.size - state.data.length → line ≠ []) :
    ReadsOn platform sections state
      { state with data := state.data ++ line, file := rest, eof := eof, needMoreSpace := true } := by
  have sizes : line.length + rest.length = state.file.length := by
    rw [← split, List.length_append]
  refine ⟨⟨?_, fun _ => waiting, ?_, fun _ => ?_, ?_, ?_⟩, ?_, .inr ?_, fun roomy => .inr ?_⟩
  · simpa using room
  · intro ready
    simp [waiting] at ready
  · have stalled := inv.stalled waiting
    unfold ParserState.Stalled at stalled ⊢
    rw [whole_append_of_not_mem _ unmarked]
    exact stalled
  · exact fun eof => ⟨ended eof, waiting⟩
  · exact fun nul => inv.nulFree (split ▸ List.mem_append_right _ nul)
  · rw [ParserState.result, ParserState.result, ← split, ← List.append_assoc]
    rfl
  · simp only [ParserState.measure, List.length_append, waiting, spaced, ↓reduceIte,
      Bool.false_eq_true]
    omega
  · have positive := List.length_pos_iff.mpr (nonempty roomy)
    simp only [ParserState.measure, List.length_append, waiting, spaced, ↓reduceIte,
      Bool.false_eq_true]
    omega

theorem fgets_cases (size : Nat) (file : Bytes) :
    ((fgetsLine size file).getLast? = some 10 ∧ fgetsEof size file = false) ∨
      (10 ∉ fgetsLine size file ∧
        (fgetsEof size file = true → file.drop (fgetsLine size file).length = []) ∧
        (1 < size → fgetsLine size file = [] → fgetsEof size file = true)) := by
  by_cases line : (fgetsLine size file).getLast? = some 10
  · exact .inl ⟨line, by simp [fgetsEof, line]⟩
  · refine .inr ⟨(untilNewline_unmarked line).1, fgetsEof_drop, fun roomy empty => ?_⟩
    simp only [fgetsEof, empty, List.length_nil, Bool.and_eq_true, decide_eq_true_eq]
    exact ⟨by omega, rfl⟩

theorem readLine_readsOn {state : ParserState Memory} (inv : ParserInv platform sections state)
    (waiting : state.needMoreData = true) (spaced : state.needMoreSpace = false) :
    ReadsOn platform sections state (readLine platform sections state) := by
  have split := fgetsLine_split (state.size - state.data.length) state.file
  have short := fgetsLine_length_le (state.size - state.data.length) state.file
  have cases := fgets_cases (state.size - state.data.length) state.file
  have room := inv.room
  unfold readLine
  simp only
  generalize state.file.drop (fgetsLine (state.size - state.data.length) state.file).length = rest at *
  generalize fgetsLine (state.size - state.data.length) state.file = line at *
  generalize fgetsEof (state.size - state.data.length) state.file = eof at *
  have nulFree : 0 ∉ line := fun nul => inv.nulFree (split ▸ List.mem_append_left _ nul)
  rw [cstr_of_nulFree nulFree]
  rcases cases with ⟨ends, rfl⟩ | ⟨unmarked, ended, emptyEof⟩
  · simp only [Bool.false_and, Bool.false_eq_true, ↓reduceIte, ends]
    exact readsOn_line inv waiting spaced split (by omega) ends
  · have notLine : line.getLast? ≠ some 10 := fun ends => unmarked (List.mem_of_getLast? ends)
    by_cases nothing : (eof && line.isEmpty) = true
    · simp only [nothing, ↓reduceIte]
      simp only [Bool.and_eq_true, List.isEmpty_iff] at nothing
      obtain ⟨rfl, rfl⟩ := nothing
      have empty : state.file = [] := by rw [← split, ended rfl]; rfl
      refine ⟨⟨room, inv.space, inv.waits, inv.stalled, fun _ => ⟨empty, waiting⟩, inv.nulFree⟩, rfl,
        .inl ?_, fun _ => .inl ?_⟩
      all_goals simp [ParserState.done]
    · rw [if_neg nothing, if_neg notLine]
      refine readsOn_partial inv waiting spaced split (by omega) unmarked ended ?_
      rintro roomy rfl
      exact nothing (by simp [emptyEof roomy rfl])

theorem growBuffer_inv {state : ParserState Memory} (inv : ParserInv platform sections state) :
    ParserInv platform sections (growBuffer state) ∧
      (growBuffer state).result platform sections = state.result platform sections ∧
      (growBuffer state).needMoreSpace = false ∧
      (growBuffer state).needMoreData = state.needMoreData ∧
      (growBuffer state).measure =
        state.measure + (if state.needMoreSpace then 1 else 0) ∧
      (state.needMoreSpace = true → 1 < (growBuffer state).size - (growBuffer state).data.length) := by
  have room := inv.room
  cases spaced : state.needMoreSpace with
  | false => simp [growBuffer, spaced, inv]
  | true =>
      have waiting := inv.space spaced
      rw [growBuffer, if_pos spaced]
      refine ⟨⟨?_, (fun space => nomatch space), inv.waits, inv.stalled, inv.ended, inv.nulFree⟩,
        rfl, rfl, rfl, ?_, fun _ => ?_⟩
      · simp only
        omega
      · simp [ParserState.measure, spaced]
      · simp only
        omega

theorem handleLine_advances {state : ParserState Memory} (inv : ParserInv platform sections state)
    (running : state.done = false) (ready : state.needMoreData = false) :
    Advances platform sections state (handleLine platform sections state) := by
  simp only [ParserState.done, Bool.or_eq_false_iff] at running
  obtain ⟨stopped | inside, complete⟩ := inv.waits ready
  · simp [running.1] at stopped
  · have spaced : state.needMoreSpace = false := by
      rw [Bool.eq_false_iff]
      intro space
      simp [inv.space space] at ready
    obtain ⟨kept, same⟩ := handleLine_inv platform sections state complete ready inv.room spaced
      running.2 inv.nulFree
    have handled : Handles platform sections state _ := handleLine_handles state complete ready
    have shorter := handled.shorter
    have strictly := handleLine_shorter platform sections inside complete ready
    refine ⟨kept, same, .inr ?_⟩
    have sameFile := handled.file
    have sameSpace := handled.needMoreSpace
    generalize handleLine platform sections state = after at *
    simp only [ParserState.measure, sameFile, sameSpace, ready, spaced]
    cases again : after.needMoreData with
    | true =>
        simp only [↓reduceIte, Bool.false_eq_true]
        omega
    | false =>
        have less := strictly again
        simp only [↓reduceIte, Bool.false_eq_true]
        omega

theorem growBuffer_of_spaced {state : ParserState Memory} (spaced : state.needMoreSpace = false) :
    growBuffer state = state := by
  simp [growBuffer, spaced]

theorem parserIteration_advances {state : ParserState Memory}
    (inv : ParserInv platform sections state) (running : state.done = false) :
    Advances platform sections state (parserIteration platform sections state) := by
  have room := inv.room
  obtain ⟨grown, same, spaced, waits, size, growth⟩ := growBuffer_inv inv
  unfold parserIteration
  rw [if_neg (by omega)]
  simp only
  cases waiting : state.needMoreData with
  | true =>
      rw [waiting] at waits
      rw [if_pos waits]
      have reads := readLine_readsOn grown waits spaced
      refine ⟨reads.inv, reads.result.trans same, ?_⟩
      cases space : state.needMoreSpace with
      | false =>
          rw [space] at size
          simpa [size] using reads.closer
      | true =>
          simp only [space, ↓reduceIte] at size
          have closer := reads.closerByTwo (growth space)
          rw [size] at closer
          exact closer.imp id fun less => by omega
  | false =>
      rw [waiting] at waits
      have notSpaced : state.needMoreSpace = false := by
        rw [Bool.eq_false_iff]
        intro space
        simp [inv.space space] at waiting
      rw [if_neg (by simp [waits]), growBuffer_of_spaced notSpaced]
      exact handleLine_advances inv running waiting

/-- The loop comes to its end within its fuel, with what the whole lines come to. -/
theorem parserLoop_result (fuel : Nat) (state : ParserState Memory)
    (inv : ParserInv platform sections state) (enough : state.measure < fuel) :
    (parserLoop platform sections fuel state).done = true ∧
      ((parserLoop platform sections fuel state).vars,
        (parserLoop platform sections fuel state).tokens) = state.result platform sections := by
  induction fuel generalizing state with
  | zero => omega
  | succ fuel ih =>
      cases finished : state.done with
      | true =>
          simp only [parserLoop, finished, ↓reduceIte, true_and]
          exact (result_of_done inv finished).symm
      | false =>
          simp only [parserLoop, finished, Bool.false_eq_true, ↓reduceIte]
          have advances := parserIteration_advances inv finished
          rcases advances.closer with done | closer
          · have stays : parserLoop platform sections fuel
                (parserIteration platform sections state) =
                  parserIteration platform sections state := by
              cases fuel with
              | zero => rfl
              | succ fuel => simp [parserLoop, done]
            rw [stays, ← advances.result]
            exact ⟨done, (result_of_done advances.inv done).symm⟩
          · rw [← advances.result]
            exact ih _ advances.inv (by omega)

theorem parserStart_inv {memory : Memory} {file : Bytes} (nulFree : 0 ∉ file) :
    ParserInv platform sections (parserStart memory file) where
  room := by simp [parserStart]
  space := fun space => nomatch space
  waits := fun ready => nomatch ready
  stalled := fun _ => rfl
  ended := fun eof => nomatch eof
  nulFree := nulFree

variable (platform sections) in
theorem parserLoop_done (memory : Memory) {file : Bytes} (nulFree : 0 ∉ file) :
    (parserLoop platform sections (parserFuel file) (parserStart memory file)).done = true :=
  (parserLoop_result _ _ (parserStart_inv nulFree) (by
    simp [ParserState.measure, parserStart, parserFuel])).1

variable (platform sections) in
/-- `parser_run` handles the tokens of the whole lines of its file. -/
theorem parserRun_eq (memory : Memory) {file : Bytes} (nulFree : 0 ∉ file) :
    parserRun platform sections memory file =
      { vars := (outcome platform sections (.start memory) []
          (readText everyMark (whole 10 file))).1.finish
        tokens := (outcome platform sections (.start memory) []
          (readText everyMark (whole 10 file))).2 } := by
  have inv : ParserInv platform sections (parserStart memory file) := parserStart_inv nulFree
  have ran := (parserLoop_result (parserFuel file) _ inv (by
    simp [ParserState.measure, parserStart, parserFuel])).2
  have value : (parserStart memory file).result platform sections =
      outcome platform sections (.start memory) [] (readText everyMark (whole 10 file)) := rfl
  rw [value] at ran
  rw [parserRun, ← ran]

end ProxySet
