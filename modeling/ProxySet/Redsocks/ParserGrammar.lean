import ProxySet.Redsocks.ParserRoom

/-!
The grammar of the configuration file, `name { (key = value ;)* }` repeated, the
looser language that `parser_run` really takes, and how the two are related.
-/

namespace ProxySet

open Lines

variable {Memory : Type}

/-! ### What the blocks of a file do -/

structure Block where
  name : Bytes
  assigns : List (Bytes × Bytes)
  deriving DecidableEq

abbrev Effect (Memory : Type) : Type := Memory × List ParserCall

def runHook (hook : Option (Memory → Except Bytes Memory)) (call : ParserCall)
    (effect : Effect Memory) : Option (Effect Memory) :=
  match hook with
  | none => some effect
  | some action =>
      match action effect.1 with
      | .ok memory => some (memory, effect.2 ++ [call])
      | .error _ => none

def runAssign (platform : Platform) (current : ParserSection Memory) (effect : Effect Memory)
    (assign : Bytes × Bytes) : Option (Effect Memory) :=
  match current.entries.find? (·.key == assign.1) with
  | none => none
  | some entry =>
      match valueParserByType platform entry.type assign.2 with
      | .ok parsed =>
          some (entry.store parsed effect.1, effect.2 ++ [.value current.name assign.1 assign.2])
      | .error _ => none

def runBody (platform : Platform) (current : ParserSection Memory) :
    List (Bytes × Bytes) → Effect Memory → Option (Effect Memory)
  | [], effect => runHook current.onexit (.onexit current.name) effect
  | assign :: rest, effect =>
      (runAssign platform current effect assign).bind (runBody platform current rest)

def runBlock (platform : Platform) (sections : List (ParserSection Memory)) (effect : Effect Memory)
    (block : Block) : Option (Effect Memory) :=
  match sections.find? (·.name == block.name) with
  | none => none
  | some current =>
      (runHook current.onenter (.onenter current.name) effect).bind
        (runBody platform current block.assigns)

/-- What the blocks of a file do in order; none when a name or a key is unknown, a value is
refused or a callback fails. -/
def runBlocks (platform : Platform) (sections : List (ParserSection Memory)) :
    List Block → Effect Memory → Option (Effect Memory)
  | [], effect => some effect
  | block :: rest, effect =>
      (runBlock platform sections effect block).bind (runBlocks platform sections rest)

/-! ### The grammar -/

def isPunctuationText (text : Bytes) : Bool :=
  text == [123] || text == [125] || text == [61] || text == [59]

def isMarkText (text : Bytes) : Bool :=
  text == [47, 47] || text == [47, 42]

/-- A name, a key or a value: a string, or a plain token that is no punctuation. -/
def Token.isWord (token : Token) : Bool :=
  token.copytype == .cstr || !isPunctuationText token.text

def Token.symbol (byte : UInt8) : Token :=
  ⟨.plainstr, [byte]⟩

/-- `(key = value ;)*` -/
inductive AssignTokens : List Token → List (Bytes × Bytes) → Prop
  | nil : AssignTokens [] []
  | cons {key value : Token} {tokens : List Token} {assigns : List (Bytes × Bytes)} :
      key.isWord = true → value.isWord = true → AssignTokens tokens assigns →
      AssignTokens (key :: .symbol 61 :: value :: .symbol 59 :: tokens)
        ((key.text, value.text) :: assigns)

/-- `(name { (key = value ;)* })*` -/
inductive BlockTokens : List Token → List Block → Prop
  | nil : BlockTokens [] []
  | cons {name : Token} {body tokens : List Token} {assigns : List (Bytes × Bytes)}
      {blocks : List Block} :
      name.isWord = true → AssignTokens body assigns → BlockTokens tokens blocks →
      BlockTokens (name :: .symbol 123 :: body ++ .symbol 125 :: tokens)
        (⟨name.text, assigns⟩ :: blocks)

/-- The content of the file, comments removed, is this sequence of blocks.  The end of the file
ends its last line. -/
structure GrammarFile (file : Bytes) (tokens : List Token) (blocks : List Block) : Prop where
  lexes : readText plainMark (file ++ [10]) = ⟨tokens, .rest []⟩
  blocks : BlockTokens tokens blocks

/-! ### The language that the parser takes -/

/-- An assignment as the parser takes it, with any number of `=` behind the key and the value. -/
def spelled (key value : Bytes) (first second : Nat) : List Bytes :=
  key :: List.replicate first [61] ++ value :: List.replicate second [61] ++ [[59]]

inductive Spelled : List Bytes → List (Bytes × Bytes) → Prop
  | nil : Spelled [] []
  | cons {key value : Bytes} {texts : List Bytes} {assigns : List (Bytes × Bytes)}
      (first second : Nat) : isPunctuationText key = false → isPunctuationText value = false →
      Spelled texts assigns →
      Spelled (spelled key value first second ++ texts) ((key, value) :: assigns)

/-- The front of an assignment, with the key and the value in it. -/
inductive Unfinished : List Bytes → Option Bytes → Option Bytes → Prop
  | nil : Unfinished [] none none
  | key {key : Bytes} (first : Nat) : isPunctuationText key = false →
      Unfinished (key :: List.replicate first [61]) (some key) none
  | value {key value : Bytes} (first second : Nat) : isPunctuationText key = false →
      isPunctuationText value = false →
      Unfinished (key :: List.replicate first [61] ++ value :: List.replicate second [61])
        (some key) (some value)

/-- Blocks whose bodies are assignments only when they are put one behind the other: what is
unfinished at a `}` goes on in the next block, and an assignment belongs to the block that holds
its `;`. -/
inductive LooseBlocks : List Bytes → List Bytes → List Block → Prop
  | nil : LooseBlocks [] [] []
  | cons {carried left body full texts : List Bytes} {name : Bytes} {key value : Option Bytes}
      {assigns : List (Bytes × Bytes)} {blocks : List Block} :
      isPunctuationText name = false → carried ++ body = full ++ left → Spelled full assigns →
      Unfinished left key value → LooseBlocks left texts blocks →
      LooseBlocks carried (name :: [123] :: body ++ [125] :: texts) (⟨name, assigns⟩ :: blocks)

/-- The whole lines of the file, read up to a token or a comment that does not end in them and
with strings taken for the marks they spell, are such blocks. -/
def LooseFile (file : Bytes) (blocks : List Block) : Prop :=
  ∃ tokens rest, readText everyMark (whole 10 file) = ⟨tokens, .rest rest⟩ ∧
    LooseBlocks [] (tokens.map (·.text)) blocks

/-! ### One token of a parser that has not stopped -/

namespace ParserVars

def running (current : Option (ParserSection Memory)) (sectionToken keyToken valueToken : Option Bytes)
    (effect : Effect Memory) : ParserVars Memory where
  parserSection := current
  sectionToken := sectionToken
  keyToken := keyToken
  valueToken := valueToken
  memory := effect.1
  calls := effect.2
  errors := []
  aborted := false

def next (platform : Platform) (sections : List (ParserSection Memory)) (vars : ParserVars Memory)
    (text : Bytes) : ParserVars Memory :=
  if vars.stopped then vars else vars.token platform sections text

end ParserVars

open ParserVars

variable {platform : Platform} {sections : List (ParserSection Memory)}
  {current : ParserSection Memory} {effect : Effect Memory} {key value : Option Bytes}

@[simp] theorem running_stopped (current : Option (ParserSection Memory))
    (sectionToken key value : Option Bytes) :
    (running current sectionToken key value effect).stopped = false :=
  rfl

theorem foldl_next_of_stopped {vars : ParserVars Memory} (stopped : vars.stopped = true)
    (texts : List Bytes) : texts.foldl (next platform sections) vars = vars := by
  induction texts with
  | nil => rfl
  | cons text rest ih => simpa [next, stopped] using ih

theorem feed_fst (vars : ParserVars Memory) (seen texts : List Bytes) :
    (feed platform sections vars seen texts).1 = texts.foldl (next platform sections) vars := by
  induction texts generalizing vars seen with
  | nil => rfl
  | cons text rest ih =>
      cases stopped : vars.stopped with
      | true => simp [feed, stopped, foldl_next_of_stopped, next]
      | false => simp [feed, stopped, next, ih]

theorem feed_snd {vars : ParserVars Memory} {texts : List Bytes} (seen : List Bytes)
    (going : (texts.foldl (next platform sections) vars).stopped = false) :
    (feed platform sections vars seen texts).2 = seen ++ texts := by
  induction texts generalizing vars seen with
  | nil => simp [feed]
  | cons text rest ih =>
      cases stopped : vars.stopped with
      | true =>
          rw [foldl_next_of_stopped stopped] at going
          simp [stopped] at going
      | false =>
          simp only [List.foldl_cons, next, stopped, Bool.false_eq_true, ↓reduceIte] at going
          simp [feed, stopped, ih _ going]

@[simp] theorem next_running (current : Option (ParserSection Memory))
    (sectionToken key value : Option Bytes) (text : Bytes) :
    next platform sections (running current sectionToken key value effect) text =
      (running current sectionToken key value effect).token platform sections text :=
  rfl

theorem token_of_word {vars : ParserVars Memory} {text : Bytes}
    (word : isPunctuationText text = false) : vars.token platform sections text = vars.word text := by
  simp only [isPunctuationText, Bool.or_eq_false_iff, beq_eq_false_iff_ne, ne_eq] at word
  simp [token, word]

theorem callback_running (hook : Option (Memory → Except Bytes Memory)) (call : ParserCall)
    (failed : Bytes) (current : Option (ParserSection Memory)) :
    (∃ after, runHook hook call effect = some after ∧
      (running current none key value effect).callback hook call failed =
        running current none key value after) ∨
    (runHook hook call effect = none ∧
      ((running current none key value effect).callback hook call failed).error = true) := by
  cases hook with
  | none => exact .inl ⟨effect, rfl, rfl⟩
  | some action =>
      cases called : action effect.1 with
      | ok memory =>
          refine .inl ⟨(memory, effect.2 ++ [call]), by simp [runHook, called], ?_⟩
          simp [callback, running, called]
      | error message =>
          refine .inr ⟨by simp [runHook, called], ?_⟩
          simp [callback, running, called, ParserVars.error]

theorem token_open (name : Bytes) :
    (∃ current after, sections.find? (·.name == name) = some current ∧
      runHook current.onenter (.onenter current.name) effect = some after ∧
      (running none (some name) key value effect).token platform sections [123] =
        running (some current) none key value after) ∨
    ((∀ current after, sections.find? (·.name == name) = some current →
        runHook current.onenter (.onenter current.name) effect ≠ some after) ∧
      ((running none (some name) key value effect).token platform sections [123]).stopped = true) := by
  cases found : sections.find? (·.name == name) with
  | none =>
      refine .inr ⟨(fun _ _ absent => nomatch absent), ?_⟩
      simp [token, openSection, running, found]
  | some current =>
      have shape : (running none (some name) key value effect).token platform sections [123] =
          (running (some current) none key value effect).callback current.onenter
            (.onenter current.name) (ascii "section->onenter failed") := by
        simp [token, openSection, running, found]
      rw [shape]
      rcases callback_running current.onenter (.onenter current.name)
        (ascii "section->onenter failed") (some current) with ⟨after, ran, same⟩ | ⟨failed, stops⟩
      · exact .inl ⟨current, after, rfl, ran, same⟩
      · refine .inr ⟨?_, by simp [ParserVars.stopped, stops]⟩
        rintro other after same ran
        obtain rfl := Option.some.inj same
        rw [failed] at ran
        cases ran

theorem token_close :
    (∃ after, runHook current.onexit (.onexit current.name) effect = some after ∧
      (running (some current) none key value effect).token platform sections [125] =
        running none none key value after) ∨
    (runHook current.onexit (.onexit current.name) effect = none ∧
      ((running (some current) none key value effect).token platform sections [125]).stopped =
        true) := by
  have shape : (running (some current) none key value effect).token platform sections [125] =
      { (running (some current) none key value effect).callback current.onexit
          (.onexit current.name) (ascii "section->onexit failed") with parserSection := none } := by
    simp [token, closeSection, running]
  rw [shape]
  rcases callback_running current.onexit (.onexit current.name) (ascii "section->onexit failed")
    (some current) with ⟨after, ran, same⟩ | ⟨failed, stops⟩
  · refine .inl ⟨after, ran, ?_⟩
    rw [same]
    rfl
  · refine .inr ⟨failed, ?_⟩
    simp only [ParserVars.error] at stops
    simp [ParserVars.stopped, ParserVars.error, stops]

theorem open_of_ran {name : Bytes} {after : Effect Memory}
    (found : sections.find? (·.name == name) = some current)
    (ran : runHook current.onenter (.onenter current.name) effect = some after) :
    (running none (some name) key value effect).token platform sections [123] =
      running (some current) none key value after := by
  rcases token_open name with ⟨other, later, foundToo, ranToo, same⟩ | ⟨none, -⟩
  · rw [found] at foundToo
    obtain rfl := Option.some.inj foundToo
    rw [ran] at ranToo
    obtain rfl := Option.some.inj ranToo
    exact same
  · exact absurd ran (none current after found)

theorem close_of_ran {after : Effect Memory}
    (ran : runHook current.onexit (.onexit current.name) effect = some after) :
    (running (some current) none key value effect).token platform sections [125] =
      running none none key value after := by
  rcases token_close with ⟨later, ranToo, same⟩ | ⟨failed, -⟩
  · rw [ran] at ranToo
    obtain rfl := Option.some.inj ranToo
    exact same
  · rw [ran] at failed
    cases failed

theorem token_terminate (key value : Bytes) :
    (∃ after, runAssign platform current effect (key, value) = some after ∧
      (running (some current) none (some key) (some value) effect).token platform sections [59] =
        running (some current) none none none after) ∨
    (runAssign platform current effect (key, value) = none ∧
      ((running (some current) none (some key) (some value) effect).token platform sections
        [59]).stopped = true) := by
  have shape : (running (some current) none (some key) (some value) effect).token platform sections
      [59] = ((running (some current) none (some key) (some value) effect).assign platform current
        key value).clearAssignment := by
    simp [token, terminate, running]
  rw [shape]
  unfold assign runAssign
  cases found : current.entries.find? (·.key == key) with
  | none =>
      refine .inr ⟨rfl, ?_⟩
      simp [clearAssignment, parserError, ParserVars.stopped, ParserVars.error]
  | some entry =>
      cases parsed : valueParserByType platform entry.type value with
      | ok result =>
          refine .inl ⟨(entry.store result effect.1,
            effect.2 ++ [.value current.name key value]), by simp only [parsed], ?_⟩
          simp [parsed, clearAssignment, running]
      | error messages =>
          refine .inr ⟨by simp only [parsed], ?_⟩
          simp [parsed, clearAssignment, ParserVars.stopped, ParserVars.error]

theorem terminate_of_ran {key value : Bytes} {after : Effect Memory}
    (ran : runAssign platform current effect (key, value) = some after) :
    (running (some current) none (some key) (some value) effect).token platform sections [59] =
      running (some current) none none none after := by
  rcases token_terminate key value with ⟨later, ranToo, same⟩ | ⟨failed, -⟩
  · rw [ran] at ranToo
    obtain rfl := Option.some.inj ranToo
    exact same
  · rw [ran] at failed
    cases failed

theorem punctuationText_cases {text : Bytes} (punctuation : isPunctuationText text = true) :
    text = [123] ∨ text = [125] ∨ text = [61] ∨ text = [59] := by
  simpa [isPunctuationText, or_assoc] using punctuation

theorem token_outside_stops {text : Bytes} (punctuation : isPunctuationText text = true) :
    ((running none none key value effect).token platform sections text).stopped = true := by
  rcases punctuationText_cases punctuation with rfl | rfl | rfl | rfl
  all_goals simp [token, openSection, closeSection, assignment, terminate, running, clearAssignment,
    parserError, ParserVars.stopped, ParserVars.error]

theorem token_named_stops {name text : Bytes} (other : text ≠ [123]) :
    ((running none (some name) key value effect).token platform sections text).stopped = true := by
  simp only [token, other, ↓reduceIte]
  split_ifs
  all_goals simp [closeSection, assignment, terminate, word, running, clearAssignment,
    parserError, ParserVars.stopped, ParserVars.error]

theorem token_nested_stops :
    ((running (some current) none key value effect).token platform sections [123]).stopped =
      true := by
  simp [token, openSection, running, parserError, ParserVars.stopped, ParserVars.error]

theorem token_assignment (key : Option Bytes) :
    (running (some current) none key value effect).token platform sections [61] =
      if key.isSome then running (some current) none key value effect
      else (running (some current) none key value effect).parserError
        (ascii "assignment used without key") := by
  cases key <;> simp [token, assignment, running]

theorem token_terminate_stops (key : Option Bytes) :
    ((running (some current) none key none effect).token platform sections [59]).stopped = true := by
  cases key with
  | none => simp [token, terminate, running, ParserVars.stopped]
  | some key =>
      simp [token, terminate, running, clearAssignment, parserError, ParserVars.stopped,
        ParserVars.error]

theorem token_third_word_stops {key value text : Bytes} (word : isPunctuationText text = false) :
    ((running (some current) none (some key) (some value) effect).token platform sections
      text).stopped = true := by
  rw [token_of_word word]
  simp [ParserVars.word, running, parserError, ParserVars.stopped, ParserVars.error]

/-! ### The parser takes the loose language -/

theorem word_outside {text : Bytes} (word : isPunctuationText text = false) :
    (running none none key value effect).token platform sections text =
      running none (some text) key value effect := by
  rw [token_of_word word]
  rfl

theorem word_key {text : Bytes} (word : isPunctuationText text = false) :
    (running (some current) none none none effect).token platform sections text =
      running (some current) none (some text) none effect := by
  rw [token_of_word word]
  rfl

theorem word_value {key text : Bytes} (word : isPunctuationText text = false) :
    (running (some current) none (some key) none effect).token platform sections text =
      running (some current) none (some key) (some text) effect := by
  rw [token_of_word word]
  rfl

theorem Unfinished.equals {carried : List Bytes} {key : Bytes} {value : Option Bytes}
    (front : Unfinished carried (some key) value) :
    Unfinished (carried ++ [[61]]) (some key) value := by
  cases front with
  | key first word =>
      rw [List.cons_append, ← List.replicate_succ']
      exact .key (first + 1) word
  | value first second word other =>
      have more := Unfinished.value first (second + 1) word other
      rw [List.replicate_succ'] at more
      simpa using more

theorem Unfinished.eq_nil {carried : List Bytes} {value : Option Bytes}
    (front : Unfinished carried none value) : carried = [] ∧ value = none := by
  cases front with
  | nil => exact ⟨rfl, rfl⟩

variable (platform sections) in
/-- The parser has taken these tokens and is between two blocks with nothing left over. -/
def Comes (texts : List Bytes) (vars : ParserVars Memory) (final : Effect Memory) : Prop :=
  texts.foldl (next platform sections) vars = running none none none none final

theorem Comes.of_cons {text : Bytes} {texts : List Bytes} {vars : ParserVars Memory}
    {final : Effect Memory} (comes : Comes platform sections (text :: texts) vars final)
    (going : vars.stopped = false) :
    Comes platform sections texts (vars.token platform sections text) final ∧
      (vars.token platform sections text).stopped = false := by
  have step : next platform sections vars text = vars.token platform sections text := by
    simp [next, going]
  unfold Comes at comes ⊢
  rw [List.foldl_cons, step] at comes
  refine ⟨comes, ?_⟩
  cases stops : (vars.token platform sections text).stopped with
  | false => rfl
  | true =>
      rw [foldl_next_of_stopped stops] at comes
      simp [comes] at stops

theorem close_of_going (going : ((running (some current) none key value effect).token platform sections
      [125]).stopped = false) :
    ∃ after, runHook current.onexit (.onexit current.name) effect = some after ∧
      (running (some current) none key value effect).token platform sections [125] =
        running none none key value after := by
  rcases token_close with ran | ⟨-, stops⟩
  · exact ran
  · rw [stops] at going
    cases going

theorem terminate_of_going {key value : Bytes}
    (going : ((running (some current) none (some key) (some value) effect).token platform sections
      [59]).stopped = false) :
    ∃ after, runAssign platform current effect (key, value) = some after ∧
      (running (some current) none (some key) (some value) effect).token platform sections [59] =
        running (some current) none none none after := by
  rcases token_terminate key value with ran | ⟨-, stops⟩
  · exact ran
  · rw [stops] at going
    cases going

theorem open_of_going {name : Bytes}
    (going : ((running none (some name) key value effect).token platform sections
      [123]).stopped = false) :
    ∃ current after, sections.find? (·.name == name) = some current ∧
      runHook current.onenter (.onenter current.name) effect = some after ∧
      (running none (some name) key value effect).token platform sections [123] =
        running (some current) none key value after := by
  rcases token_open name with ran | ⟨-, stops⟩
  · exact ran
  · rw [stops] at going
    cases going

variable (platform sections) in
def RestOfBlock (current : ParserSection Memory) (carried texts : List Bytes)
    (effect final : Effect Memory) : Prop :=
  ∃ body behind full left assigns laterKey laterValue after,
    texts = body ++ [125] :: behind ∧ carried ++ body = full ++ left ∧ Spelled full assigns ∧
    Unfinished left laterKey laterValue ∧ runBody platform current assigns effect = some after ∧
    Comes platform sections behind (running none none laterKey laterValue after) final

theorem inside_loose (texts : List Bytes) : ∀ {carried : List Bytes} {key value : Option Bytes}
    {effect final : Effect Memory}, Unfinished carried key value →
    Comes platform sections texts (running (some current) none key value effect) final →
    RestOfBlock platform sections current carried texts effect final := by
  induction texts with
  | nil =>
      intro carried key value effect final front comes
      exact absurd (congrArg ParserVars.parserSection comes) (by simp [running])
  | cons text texts ih =>
      intro carried key value effect final front comes
      obtain ⟨later, going⟩ := comes.of_cons rfl
      -- a token that finishes nothing: the front of the assignment has become longer
      have longer : ∀ {nextKey nextValue : Option Bytes},
          (running (some current) none key value effect).token platform sections text =
            running (some current) none nextKey nextValue effect →
          Unfinished (carried ++ [text]) nextKey nextValue →
          RestOfBlock platform sections current carried (text :: texts) effect final := by
        intro nextKey nextValue same nextFront
        rw [same] at later
        obtain ⟨body, behind, full, left, assigns, laterKey, laterValue, after, rfl, split, rest⟩ :=
          ih nextFront later
        refine ⟨text :: body, behind, full, left, assigns, laterKey, laterValue, after, rfl, ?_, rest⟩
        rw [← split, List.append_assoc]
        rfl
      cases word : isPunctuationText text with
      | true =>
          rcases punctuationText_cases word with rfl | rfl | rfl | rfl
          · rw [token_nested_stops] at going
            cases going
          · obtain ⟨after, ran, same⟩ := close_of_going going
            rw [same] at later
            exact ⟨[], texts, [], carried, [], key, value, after, rfl, by simp, .nil, front, ran, later⟩
          · cases key with
            | none =>
                rw [token_assignment] at going
                simp at going
            | some key =>
                exact longer (token_assignment (some key)) front.equals
          · cases value with
            | none =>
                rw [token_terminate_stops] at going
                cases going
            | some value =>
                cases front with
                | value first second keyWord valueWord =>
                    obtain ⟨middle, ran, same⟩ := terminate_of_going going
                    rw [same] at later
                    obtain ⟨body, behind, full, left, assigns, laterKey, laterValue, after, rfl, split,
                      spelledRest, rest⟩ := ih .nil later
                    refine ⟨[59] :: body, behind, _, left, _, laterKey, laterValue, after, rfl, ?_,
                      .cons first second keyWord valueWord spelledRest, rest.1, ?_, rest.2.2⟩
                    · rw [List.nil_append] at split
                      simp [spelled, split]
                    · simpa [runBody, ran] using rest.2.1
      | false =>
          cases front with
          | nil => exact longer (word_key word) (.key 0 word)
          | key first keyWord => exact longer (word_value word) (.value first 0 keyWord word)
          | value first second keyWord valueWord =>
              rw [token_third_word_stops word] at going
              cases going

/-- From between two blocks: the rest of the file is made of blocks that run. -/
theorem outside_loose (size : Nat) : ∀ {texts carried : List Bytes} {key value : Option Bytes}
    {effect final : Effect Memory}, texts.length = size → Unfinished carried key value →
    Comes platform sections texts (running none none key value effect) final →
    ∃ blocks, LooseBlocks carried texts blocks ∧
      runBlocks platform sections blocks effect = some final := by
  induction size using Nat.strong_induction_on with
  | _ size ih =>
      intro texts carried key value effect final sizeEq front comes
      cases texts with
      | nil =>
          have noKey := congrArg ParserVars.keyToken comes
          have sameMemory := congrArg ParserVars.memory comes
          have sameCalls := congrArg ParserVars.calls comes
          simp only [List.foldl_nil, running] at noKey sameMemory sameCalls
          subst noKey
          obtain ⟨rfl, rfl⟩ := front.eq_nil
          exact ⟨[], .nil, by simp [runBlocks, Prod.ext_iff, sameMemory, sameCalls]⟩
      | cons name texts =>
          obtain ⟨named, going⟩ := comes.of_cons rfl
          cases word : isPunctuationText name with
          | true =>
              rw [token_outside_stops word] at going
              cases going
          | false =>
              rw [word_outside word] at named
              cases texts with
              | nil => exact absurd (congrArg ParserVars.sectionToken named) (by simp [running])
              | cons brace texts =>
                  obtain ⟨opened, goingOn⟩ := named.of_cons rfl
                  by_cases isOpen : brace = [123]
                  · subst isOpen
                    obtain ⟨current, middle, found, entered, same⟩ := open_of_going goingOn
                    rw [same] at opened
                    obtain ⟨body, behind, full, left, assigns, laterKey, laterValue, after, rfl, split,
                      spelledFull, laterFront, ran, rest⟩ := inside_loose texts front opened
                    simp only [List.length_cons, List.length_append] at sizeEq
                    obtain ⟨blocks, loose, done⟩ := ih behind.length (by omega) rfl laterFront rest
                    refine ⟨⟨name, assigns⟩ :: blocks, .cons word split spelledFull laterFront loose, ?_⟩
                    simp [runBlocks, runBlock, found, entered, ran, done]
                  · rw [token_named_stops isOpen] at goingOn
                    cases goingOn

theorem foldl_equals (key : Bytes) (value : Option Bytes) (count : Nat) :
    (List.replicate count [61]).foldl (next platform sections)
        (running (some current) none (some key) value effect) =
      running (some current) none (some key) value effect := by
  induction count with
  | zero => rfl
  | succ count ih =>
      rw [List.replicate_succ, List.foldl_cons, next_running, token_assignment]
      exact ih

theorem foldl_unfinished {carried : List Bytes} {key value : Option Bytes}
    (front : Unfinished carried key value) :
    carried.foldl (next platform sections) (running (some current) none none none effect) =
      running (some current) none key value effect := by
  cases front with
  | nil => rfl
  | key first word =>
      rw [List.foldl_cons, next_running, word_key word, foldl_equals]
  | value first second word other =>
      simp only [List.foldl_append, List.foldl_cons, next_running, word_key word, foldl_equals,
        word_value other]

theorem foldl_spelled {full : List Bytes} {assigns : List (Bytes × Bytes)}
    (shape : Spelled full assigns) : ∀ {effect after : Effect Memory},
    runBody platform current assigns effect = some after →
    ∃ middle, full.foldl (next platform sections) (running (some current) none none none effect) =
        running (some current) none none none middle ∧
      runHook current.onexit (.onexit current.name) middle = some after := by
  induction shape with
  | nil =>
      intro effect after ran
      exact ⟨effect, rfl, ran⟩
  | @cons key value texts assigns first second word other shape ih =>
      intro effect after ran
      obtain ⟨next, assigned, rest⟩ := Option.bind_eq_some_iff.mp ran
      obtain ⟨middle, runs, exits⟩ := ih rest
      refine ⟨middle, ?_, exits⟩
      rw [spelled, List.append_assoc, List.foldl_append,
        foldl_unfinished (.value first second word other), List.singleton_append, List.foldl_cons,
        next_running, terminate_of_ran assigned]
      exact runs

theorem loose_comes {carried texts : List Bytes} {blocks : List Block}
    (loose : LooseBlocks carried texts blocks) : ∀ {key value : Option Bytes}
    {effect final : Effect Memory}, Unfinished carried key value →
    runBlocks platform sections blocks effect = some final →
    Comes platform sections texts (running none none key value effect) final := by
  induction loose with
  | nil =>
      intro key value effect final front ran
      cases front with
      | nil =>
          obtain rfl := Option.some.inj ran
          rfl
  | @cons carried left body full texts name laterKey laterValue assigns blocks word split shape
      laterFront loose ih =>
      intro key value effect final front ran
      obtain ⟨after, block, rest⟩ := Option.bind_eq_some_iff.mp ran
      have later := ih laterFront rest
      simp only [runBlock] at block
      cases found : sections.find? (·.name == name) with
      | none => simp [found] at block
      | some current =>
          simp only [found] at block
          obtain ⟨entered, enters, runs⟩ := Option.bind_eq_some_iff.mp block
          obtain ⟨middle, assigned, exits⟩ := foldl_spelled shape runs
          -- the carried tokens are as good as read again in this section
          have wholeBody : body.foldl (next platform sections)
              (running (some current) none key value entered) =
                running (some current) none laterKey laterValue middle := by
            rw [← foldl_unfinished front, ← List.foldl_append, split, List.foldl_append, assigned,
              foldl_unfinished laterFront]
          unfold Comes at later ⊢
          simp only [List.cons_append, List.foldl_cons, List.foldl_append, next_running,
            word_outside word, open_of_ran found enters, wholeBody, close_of_ran exits]
          exact later

theorem finish_returns_zero (vars : ParserVars Memory) (tokens : List Bytes) :
    ParserResult.returned { vars := vars.finish, tokens := tokens } = some 0 ↔
      ∃ final, vars = running none none none none final := by
  obtain ⟨current, sectionToken, key, value, memory, calls, errors, aborted⟩ := vars
  constructor
  · intro returned
    cases current <;> cases sectionToken <;> cases key <;> cases value <;> cases aborted <;>
      cases errors <;>
      simp [ParserResult.returned, finish, errorIf, parserError, ParserVars.error] at returned
    exact ⟨(memory, calls), rfl⟩
  · rintro ⟨final, same⟩
    rw [same]
    rfl

theorem finish_running (final : Effect Memory) :
    (running none none none none final).finish = running none none none none final :=
  rfl

theorem outcome_fst_running {vars : ParserVars Memory} {seen : List Bytes} {reading : Reading}
    {final : Effect Memory}
    (comes : (outcome platform sections vars seen reading).1 = running none none none none final) :
    ∃ rest, reading.ending = .rest rest ∧ Comes platform sections reading.texts vars final := by
  unfold outcome at comes
  simp only [feed_fst] at comes
  cases ending : reading.ending with
  | rest rest =>
      rw [ending] at comes
      exact ⟨rest, rfl, comes⟩
  | invalid message =>
      rw [ending] at comes
      have stopped := congrArg ParserVars.stopped comes
      simp only [atEnding] at stopped
      split at stopped
      · next stops => simp [stops] at stopped
      · simp at stopped

theorem outcome_of_comes {vars : ParserVars Memory} {tokens : List Token} {rest : Bytes}
    {final : Effect Memory} (comes : Comes platform sections (tokens.map (·.text)) vars final) :
    outcome platform sections vars [] ⟨tokens, .rest rest⟩ =
      (running none none none none final, tokens.map (·.text)) := by
  unfold Comes at comes
  unfold outcome
  simp only [Reading.texts, feed_fst, comes, atEnding]
  rw [feed_snd [] (by rw [comes]; rfl), List.nil_append]

variable {memory : Memory} {file : Bytes}

/-- What the parser accepts it has read as blocks of the loose language, and done what they say. -/
theorem loose_of_accepts (nulFree : 0 ∉ file)
    (accepts : (parserRun platform sections memory file).returned = some 0) :
    ∃ tokens rest blocks, readText everyMark (whole 10 file) = ⟨tokens, .rest rest⟩ ∧
      LooseBlocks [] (tokens.map (·.text)) blocks ∧
      runBlocks platform sections blocks (memory, []) =
        some ((parserRun platform sections memory file).vars.memory,
          (parserRun platform sections memory file).vars.calls) ∧
      (parserRun platform sections memory file).tokens = tokens.map (·.text) := by
  rw [parserRun_eq platform sections memory nulFree] at accepts ⊢
  obtain ⟨final, same⟩ := (finish_returns_zero _ _).mp accepts
  obtain ⟨rest, ending, comes⟩ := outcome_fst_running same
  obtain ⟨tokens, ends⟩ : ∃ tokens, readText everyMark (whole 10 file) = ⟨tokens, .rest rest⟩ :=
    ⟨_, by rw [← ending]⟩
  rw [ends] at comes
  have start : ParserVars.start memory = running none none none none (memory, []) := rfl
  rw [start] at comes
  obtain ⟨blocks, loose, ran⟩ := outside_loose _ rfl .nil comes
  refine ⟨tokens, rest, blocks, ends, loose, ?_, ?_⟩
  · rw [ends, start, outcome_of_comes comes]
    exact ran
  · rw [ends, start, outcome_of_comes comes]

theorem accepts_of_loose {tokens : List Token} {rest : Bytes} {blocks : List Block}
    {final : Effect Memory} (nulFree : 0 ∉ file)
    (reads : readText everyMark (whole 10 file) = ⟨tokens, .rest rest⟩)
    (loose : LooseBlocks [] (tokens.map (·.text)) blocks)
    (ran : runBlocks platform sections blocks (memory, []) = some final) :
    parserRun platform sections memory file =
      { vars := running none none none none final, tokens := tokens.map (·.text) } := by
  have start : ParserVars.start memory = running none none none none (memory, []) := rfl
  have comes := loose_comes loose .nil ran
  rw [parserRun_eq platform sections memory nulFree, reads, start, outcome_of_comes comes,
    finish_running]

theorem accepts_iff_loose (nulFree : 0 ∉ file) :
    (parserRun platform sections memory file).returned = some 0 ↔
      ∃ blocks final, LooseFile file blocks ∧
        runBlocks platform sections blocks (memory, []) = some final := by
  constructor
  · intro accepts
    obtain ⟨tokens, rest, blocks, reads, loose, ran, -⟩ := loose_of_accepts nulFree accepts
    exact ⟨blocks, _, ⟨tokens, rest, reads, loose⟩, ran⟩
  · rintro ⟨blocks, final, ⟨tokens, rest, reads, loose⟩, ran⟩
    rw [accepts_of_loose nulFree reads loose ran]
    rfl

/-! ### Strings that spell punctuation or a mark -/

/-- A string that `parser_run` takes for punctuation or for the start of a comment. -/
def Token.isDisguised (token : Token) : Bool :=
  token.copytype == .cstr && (isPunctuationText token.text || isMarkText token.text)

def Token.isQuotedMark (token : Token) : Bool :=
  token.copytype == .cstr && isMarkText token.text

theorem lexStep_everyMark {text : Bytes}
    (unmarked : ∀ token rest, lexStep plainMark text = .token token rest →
      token.isQuotedMark = false) : lexStep everyMark text = lexStep plainMark text := by
  unfold lexStep at unmarked ⊢
  cases scanned : gettoken text with
  | incomplete iter => rfl
  | invalid message iter => rfl
  | token copytype word iter =>
      cases copytype with
      | plainstr => rfl
      | cstr =>
          simp only [scanned, plainMark, Bool.false_eq_true, false_and, ↓reduceIte] at unmarked
          have plain := unmarked ⟨.cstr, word⟩ iter rfl
          simp only [Token.isQuotedMark, isMarkText, beq_self_eq_true, Bool.true_and,
            Bool.or_eq_false_iff, beq_eq_false_iff_ne, ne_eq] at plain
          simp [plainMark, everyMark, plain]

theorem readText_everyMark (text : Bytes) :
    (∀ token ∈ (readText plainMark text).tokens, token.isQuotedMark = false) →
      readText everyMark text = readText plainMark text := by
  induction text using lex_induction plainMark with
  | stop text ending step =>
      intro _
      rw [readText_step text, readText_step text, lexStep_everyMark (by simp [step]), step]
  | skip text rest step ih =>
      intro unmarked
      rw [readText_step text, step] at unmarked
      rw [readText_step text, readText_step text, lexStep_everyMark (by simp [step]), step]
      exact ih unmarked
  | token text token rest step ih =>
      intro unmarked
      rw [readText_step text, step] at unmarked
      simp only [Reading.push, List.mem_cons, forall_eq_or_imp] at unmarked
      rw [readText_step text, readText_step text, lexStep_everyMark (by simp_all), step]
      simp only [ih unmarked.2]

theorem everyMark_tokens (text : Bytes) :
    ∀ token ∈ (readText everyMark text).tokens, isMarkText token.text = false := by
  induction text using lex_induction everyMark with
  | stop text ending step => simp [readText_step, step]
  | skip text rest step ih => simpa [readText_step text, step] using ih
  | token text token rest step ih =>
      obtain ⟨copytype, word, iter, -, shape⟩ := lexStep_goes (some token) step
      simp only [reduceCtorEq, false_and, Option.some.injEq, false_or] at shape
      obtain ⟨rfl, rfl, unmarked⟩ := shape
      simp only [everyMark, true_and, not_or] at unmarked
      rw [readText_step text, step]
      simp only [Reading.push, List.mem_cons, forall_eq_or_imp]
      exact ⟨by simp [isMarkText, unmarked], ih⟩

/-! ### The grammar and the parser -/

theorem Token.text_of_isWord {token : Token} (word : token.isWord = true)
    (undisguised : token.isDisguised = false) : isPunctuationText token.text = false := by
  simp only [Token.isWord, Token.isDisguised, Bool.or_eq_true, Bool.not_eq_true', beq_iff_eq,
    Bool.and_eq_false_iff, Bool.or_eq_false_iff] at word undisguised
  rcases word with quoted | plain
  · simp only [quoted, beq_self_eq_true, Bool.true_eq_false, false_or] at undisguised
    exact undisguised.1
  · exact plain

theorem AssignTokens.spelled {body : List Token} {assigns : List (Bytes × Bytes)}
    (shape : AssignTokens body assigns)
    (undisguised : ∀ token ∈ body, token.isDisguised = false) :
    Spelled (body.map (·.text)) assigns := by
  induction shape with
  | nil => exact .nil
  | cons keyWord valueWord shape ih =>
      simp only [List.mem_cons, forall_eq_or_imp] at undisguised
      exact .cons 1 0 (Token.text_of_isWord keyWord undisguised.1)
        (Token.text_of_isWord valueWord undisguised.2.2.1) (ih undisguised.2.2.2.2)

theorem BlockTokens.loose {tokens : List Token} {blocks : List Block}
    (shape : BlockTokens tokens blocks)
    (undisguised : ∀ token ∈ tokens, token.isDisguised = false) :
    LooseBlocks [] (tokens.map (·.text)) blocks := by
  induction shape with
  | nil => exact .nil
  | @cons name body tokens assigns blocks word bodyShape shape ih =>
      have inBody : ∀ token ∈ body, token.isDisguised = false :=
        fun token member => undisguised token (by simp [member])
      have later : ∀ token ∈ tokens, token.isDisguised = false :=
        fun token member => undisguised token (by simp [member])
      have named := Token.text_of_isWord word (undisguised name (by simp))
      have loose : LooseBlocks []
          (name.text :: [123] :: body.map (·.text) ++ [125] :: tokens.map (·.text)) _ :=
        .cons named (List.append_nil _).symm (bodyShape.spelled inBody) .nil (ih later)
      simpa [Token.symbol] using loose

/-- In the body of a block a string that spells punctuation is an error at the latest at the
punctuation behind it. -/
theorem body_plain {body : List Token} {assigns : List (Bytes × Bytes)} {texts : List Bytes}
    (shape : AssignTokens body assigns) : ∀ {effect final : Effect Memory},
    Comes platform sections (body.map (·.text) ++ [125] :: texts)
      (running (some current) none none none effect) final →
    (∀ token ∈ body, token.copytype = .cstr → isPunctuationText token.text = false) ∧
      ∃ after, Comes platform sections texts (running none none none none after) final := by
  induction shape with
  | nil =>
      intro effect final comes
      obtain ⟨later, going⟩ := comes.of_cons rfl
      obtain ⟨after, -, same⟩ := close_of_going going
      rw [same] at later
      exact ⟨by simp, after, later⟩
  | @cons key value tokens assigns keyWord valueWord shape ih =>
      intro effect final comes
      simp only [List.map_cons, List.cons_append, Token.symbol] at comes
      obtain ⟨behindKey, goingKey⟩ := comes.of_cons rfl
      have plainKey : isPunctuationText key.text = false := by
        cases punctuation : isPunctuationText key.text with
        | false => rfl
        | true =>
            rcases punctuationText_cases punctuation with same | same | same | same
            all_goals rw [same] at goingKey behindKey
            · rw [token_nested_stops] at goingKey
              cases goingKey
            · obtain ⟨after, -, closed⟩ := close_of_going goingKey
              rw [closed] at behindKey
              have going := (behindKey.of_cons rfl).2
              rw [token_outside_stops rfl] at going
              cases going
            · rw [token_assignment] at goingKey
              simp at goingKey
            · rw [token_terminate_stops] at goingKey
              cases goingKey
      rw [word_key plainKey] at behindKey
      obtain ⟨behindEquals, -⟩ := behindKey.of_cons rfl
      rw [token_assignment] at behindEquals
      obtain ⟨behindValue, goingValue⟩ := Comes.of_cons behindEquals rfl
      have plainValue : isPunctuationText value.text = false := by
        cases punctuation : isPunctuationText value.text with
        | false => rfl
        | true =>
            rcases punctuationText_cases punctuation with same | same | same | same
            all_goals rw [same] at goingValue behindValue
            all_goals simp only [Option.isSome_some, ↓reduceIte] at goingValue behindValue
            · rw [token_nested_stops] at goingValue
              cases goingValue
            · obtain ⟨after, -, closed⟩ := close_of_going goingValue
              rw [closed] at behindValue
              have going := (behindValue.of_cons rfl).2
              rw [token_outside_stops rfl] at going
              cases going
            · rw [token_assignment] at behindValue
              have going := (Comes.of_cons behindValue rfl).2
              simp only [Option.isSome_some, ↓reduceIte] at going
              rw [token_terminate_stops] at going
              cases going
            · rw [token_terminate_stops] at goingValue
              cases goingValue
      simp only [Option.isSome_some, ↓reduceIte, word_value plainValue] at behindValue
      obtain ⟨behindEnd, goingEnd⟩ := behindValue.of_cons rfl
      obtain ⟨after, -, assigned⟩ := terminate_of_going goingEnd
      rw [assigned] at behindEnd
      obtain ⟨plain, later⟩ := ih behindEnd
      refine ⟨?_, later⟩
      simp only [List.mem_cons, forall_eq_or_imp]
      refine ⟨fun _ => plainKey, ?_, fun _ => plainValue, ?_, plain⟩
      all_goals
        intro quoted
        cases quoted

theorem blocks_plain {tokens : List Token} {blocks : List Block}
    (shape : BlockTokens tokens blocks) : ∀ {effect final : Effect Memory},
    Comes platform sections (tokens.map (·.text)) (running none none none none effect) final →
    ∀ token ∈ tokens, token.copytype = .cstr → isPunctuationText token.text = false := by
  induction shape with
  | nil => simp
  | @cons name body tokens assigns blocks word bodyShape shape ih =>
      intro effect final comes
      simp only [List.map_cons, List.map_append, List.cons_append, Token.symbol] at comes
      obtain ⟨behindName, goingName⟩ := comes.of_cons rfl
      have plainName : isPunctuationText name.text = false := by
        cases punctuation : isPunctuationText name.text with
        | false => rfl
        | true =>
            rw [token_outside_stops punctuation] at goingName
            cases goingName
      rw [word_outside plainName] at behindName
      obtain ⟨behindOpen, goingOpen⟩ := behindName.of_cons rfl
      obtain ⟨current, after, -, -, opened⟩ := open_of_going goingOpen
      rw [opened] at behindOpen
      obtain ⟨plainBody, later, rest⟩ := body_plain bodyShape behindOpen
      have plainRest := ih rest
      intro token member
      simp only [List.cons_append, List.mem_cons, List.mem_append] at member
      rcases member with rfl | rfl | inBody | rfl | inRest
      · exact fun _ => plainName
      · exact fun quoted => nomatch quoted
      · exact plainBody token inBody
      · exact fun quoted => nomatch quoted
      · exact plainRest token inRest

section

variable (platform sections)

/-- The file is in the grammar, and its names, keys, values and callbacks are in order. -/
def InGrammar (memory : Memory) (file : Bytes) : Prop :=
  ∃ tokens blocks final, GrammarFile file tokens blocks ∧
    runBlocks platform sections blocks (memory, []) = some final

def InLooseLanguage (memory : Memory) (file : Bytes) : Prop :=
  ∃ blocks final, LooseFile file blocks ∧
    runBlocks platform sections blocks (memory, []) = some final

/-- `parser_run` returns 0 on the files of the grammar only, and has then done what their blocks
say and read all their tokens. -/
def ParsesGrammar (memory : Memory) (file : Bytes) : Prop :=
  ((parserRun platform sections memory file).returned = some 0 ↔
      InGrammar platform sections memory file) ∧
    ((parserRun platform sections memory file).returned = some 0 →
      ∃ tokens blocks, GrammarFile file tokens blocks ∧
        runBlocks platform sections blocks (memory, []) =
          some ((parserRun platform sections memory file).vars.memory,
            (parserRun platform sections memory file).vars.calls) ∧
        (parserRun platform sections memory file).tokens = tokens.map (·.text))

/-- A file of the grammar whose tokens all stand on lines that a newline ends, with no string that
spells punctuation or a comment's mark. -/
def PlainlyInGrammar (memory : Memory) (file : Bytes) : Prop :=
  ∃ tokens blocks final, GrammarFile file tokens blocks ∧
    runBlocks platform sections blocks (memory, []) = some final ∧
    (readText plainMark (whole 10 file)).tokens = tokens ∧
    ∀ token ∈ tokens, token.isDisguised = false

end

theorem Token.isQuotedMark_of_isDisguised {token : Token} (undisguised : token.isDisguised = false) :
    token.isQuotedMark = false := by
  simp only [Token.isDisguised, Token.isQuotedMark, Bool.and_eq_false_iff,
    Bool.or_eq_false_iff] at undisguised ⊢
  exact undisguised.imp id And.right

theorem GrammarFile.lines {tokens : List Token} {blocks : List Block}
    (grammar : GrammarFile file tokens blocks) :
    ∃ rest later, readText plainMark (whole 10 file) =
        ⟨(readText plainMark (whole 10 file)).tokens, .rest rest⟩ ∧
      tokens = (readText plainMark (whole 10 file)).tokens ++ later := by
  obtain ⟨tail, split, -⟩ := exists_tail 10 file
  have lexes := grammar.lexes
  rw [split, List.append_assoc, readText_append rfl _ _ (whole_complete file)] at lexes
  cases ending : (readText plainMark (whole 10 file)).ending with
  | invalid message => simp [ending] at lexes
  | rest rest =>
      simp only [ending, Reading.prepend, Reading.mk.injEq] at lexes
      exact ⟨rest, _, by rw [← ending], lexes.1.symm⟩

theorem parsesGrammar_of_plain (nulFree : 0 ∉ file)
    (plain : PlainlyInGrammar platform sections memory file) :
    ParsesGrammar platform sections memory file := by
  obtain ⟨tokens, blocks, final, grammar, ran, onLines, undisguised⟩ := plain
  obtain ⟨rest, -, reads, -⟩ := grammar.lines
  rw [onLines] at reads
  have unmarked : ∀ token ∈ (readText plainMark (whole 10 file)).tokens,
      token.isQuotedMark = false := by
    rw [onLines]
    exact fun token member => Token.isQuotedMark_of_isDisguised (undisguised token member)
  have same := (readText_everyMark _ unmarked).trans reads
  have result := accepts_of_loose nulFree same (grammar.blocks.loose undisguised) ran
  refine ⟨iff_of_true ?_ ⟨tokens, blocks, final, grammar, ran⟩, fun _ => ?_⟩
  · rw [result]
    rfl
  · rw [result]
    exact ⟨tokens, blocks, grammar, ran, rfl⟩

theorem plain_of_parsesGrammar (nulFree : 0 ∉ file)
    (inGrammar : InGrammar platform sections memory file)
    (parses : ParsesGrammar platform sections memory file) :
    PlainlyInGrammar platform sections memory file := by
  have accepts := parses.1.mpr inGrammar
  obtain ⟨tokens, blocks, grammar, ran, allRead⟩ := parses.2 accepts
  obtain ⟨found, rest, loose, reads, looseShape, looseRan, readToo⟩ := loose_of_accepts nulFree accepts
  obtain ⟨rest', later, lines, split⟩ := grammar.lines
  have sameTexts : tokens.map (·.text) = found.map (·.text) := by rw [← allRead, readToo]
  -- the parser has read no mark, so no string of the file spells one
  have unmarked : ∀ token ∈ tokens, isMarkText token.text = false := by
    intro token member
    obtain ⟨other, inFound, same⟩ : ∃ other ∈ found, other.text = token.text := by
      have inTexts : token.text ∈ found.map (·.text) := sameTexts ▸ List.mem_map_of_mem member
      exact List.mem_map.mp inTexts
    have plain := everyMark_tokens (whole 10 file) other (by rw [reads]; exact inFound)
    rwa [same] at plain
  have onLines : (readText plainMark (whole 10 file)).tokens = tokens := by
    have sameReading := readText_everyMark (whole 10 file) (by
      intro token member
      have plain := unmarked token (by rw [split]; exact List.mem_append_left _ member)
      simp [Token.isQuotedMark, plain])
    rw [reads] at sameReading
    have sizes := congrArg List.length sameTexts
    rw [← sameReading] at split ⊢
    simp only [split, List.map_append, List.length_append, List.length_map] at sizes
    obtain rfl : later = [] := List.length_eq_zero_iff.mp (by omega)
    simpa using split.symm
  refine ⟨tokens, blocks, _, grammar, ran, onLines, fun token member => ?_⟩
  have comes := loose_comes looseShape .nil looseRan
  rw [← sameTexts] at comes
  have plain := blocks_plain grammar.blocks comes token member
  cases kind : token.copytype with
  | plainstr => simp [Token.isDisguised, kind]
  | cstr => simp [Token.isDisguised, kind, plain kind, unmarked token member]

/-- The parser keeps to its grammar on a file exactly when the file is plainly in it, or is neither
in it nor in the language that the parser takes in its place.  The room that `parserRun` leaves to
`fgets` has no bound; on a file of less than 2^30 bytes, with the NUL behind it, an `int` makes no
difference. -/
theorem parserRun_grammar_iff (platform : Platform) (sections : List (ParserSection Memory))
    (memory : Memory) (file : Bytes) (nulFree : 0 ∉ file) :
    (ParsesGrammar platform sections memory file ↔
      PlainlyInGrammar platform sections memory file ∨
        (¬InGrammar platform sections memory file ∧
          ¬InLooseLanguage platform sections memory file)) ∧
    (file.length + 1 < 2 ^ 30 → ParserMachine.Ends platform sections memory file
      (parserRun platform sections memory file)) := by
  refine ⟨?_, ParserMachine.ends_of_short memory nulFree⟩
  constructor
  · intro parses
    by_cases inGrammar : InGrammar platform sections memory file
    · exact .inl (plain_of_parsesGrammar nulFree inGrammar parses)
    · exact .inr ⟨inGrammar, fun loose =>
        inGrammar (parses.1.mp ((accepts_iff_loose nulFree).mpr loose))⟩
  · rintro (plain | ⟨outside, refused⟩)
    · exact parsesGrammar_of_plain nulFree plain
    · have rejects : (parserRun platform sections memory file).returned ≠ some 0 :=
        fun accepts => refused ((accepts_iff_loose nulFree).mp accepts)
      exact ⟨iff_of_false rejects outside, fun accepts => absurd accepts rejects⟩

def samplePlatform : Platform where
  longBits := 32
  resolve := fun _ => .error (ascii "getaddrinfo error -2")

def sampleSections : List (ParserSection (Option ParserValue)) :=
  [{ name := ascii "base", onenter := none, onexit := none,
     entries := [{ key := ascii "log", type := .pchar, store := fun value _ => some value }] }]

theorem parserRun_grammar_iff_log :
    ParsesGrammar samplePlatform sampleSections none (ascii "base \x7b log = \"a b\"; \x7d // end\n") ∧
      ParserMachine.Ends samplePlatform sampleSections none
        (ascii "base \x7b log = \"a b\"; \x7d // end\n")
        (parserRun samplePlatform sampleSections none
          (ascii "base \x7b log = \"a b\"; \x7d // end\n")) := by
  obtain ⟨exactly, ends⟩ := parserRun_grammar_iff samplePlatform sampleSections none
    (ascii "base \x7b log = \"a b\"; \x7d // end\n") (by decide +kernel)
  refine ⟨exactly.mpr (.inl ?_), ends (by decide +kernel)⟩
  refine ⟨[⟨.plainstr, ascii "base"⟩, .symbol 123, ⟨.plainstr, ascii "log"⟩, .symbol 61,
      ⟨.cstr, ascii "a b"⟩, .symbol 59, .symbol 125], [⟨ascii "base", [(ascii "log", ascii "a b")]⟩],
    (some (.pchar (ascii "a b")), [.value (ascii "base") (ascii "log") (ascii "a b")]), ⟨?_, ?_⟩, ?_, ?_,
    ?_⟩
  · decide +kernel
  · exact .cons rfl (.cons rfl rfl .nil) .nil
  · decide +kernel
  · decide +kernel
  · decide +kernel

/-- Without a newline at its end the last line is never looked at. -/
theorem parserRun_drops_last_line :
    ¬ParsesGrammar samplePlatform sampleSections none (ascii "base \x7b log = syslog; \x7d") := by
  intro parses
  obtain ⟨tokens, blocks, grammar, -, read⟩ := parses.2 (by decide +kernel)
  have lexes := grammar.lexes
  have tokensRead : (parserRun samplePlatform sampleSections none
      (ascii "base \x7b log = syslog; \x7d")).tokens = [] := by decide +kernel
  rw [tokensRead] at read
  obtain rfl : tokens = [] := by simpa using read.symm
  exact absurd lexes (by decide +kernel)

end ProxySet
