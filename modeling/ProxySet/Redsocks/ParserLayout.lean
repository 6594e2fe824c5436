import ProxySet.Redsocks.ParserGrammar

/-!
Layout of configuration files: the texts that a sequence of tokens can be written
as, with white space and comments between them, and that `parser_run` treats them
alike.
-/

namespace ProxySet

open Lines ParserVars

variable {Memory : Type}

/-! ### Texts of a sequence of tokens -/

/-- What may stand between two tokens: white space and comments that end. -/
inductive Gap : Bytes → Prop
  | nil : Gap []
  | space {byte : UInt8} {gap : Bytes} : isspace byte = true → Gap gap → Gap (byte :: gap)
  | line {body gap : Bytes} : 10 ∉ body → Gap gap → Gap (47 :: 47 :: body ++ 10 :: gap)
  | block {body gap : Bytes} : ¬[42, 47] <:+: body → Gap gap →
      Gap (47 :: 42 :: body ++ 42 :: 47 :: gap)

inductive Escaped : Bytes → Bytes → Prop
  | nil : Escaped [] []
  | plain {byte : UInt8} {raw text : Bytes} : byte ≠ 34 → byte ≠ 92 → Escaped raw text →
      Escaped (byte :: raw) (byte :: text)
  | escape {escaped : UInt8} {raw text : Bytes} : unescape escaped ≠ 0 → Escaped raw text →
      Escaped (92 :: escaped :: raw) (unescape escaped :: text)

def isNumberText : Bytes → Bool
  | [] => true
  | byte :: rest => numberGoes byte rest && isNumberText rest

/-- A number ends in front of a byte that does not go on with it; a slash there starts a comment. -/
def NumberEnds (rest : Bytes) : Prop :=
  ∃ byte behind, rest = byte :: behind ∧ isdigit byte = false ∧ byte ≠ 46 ∧
    (byte = 47 → behind.head? = some 47 ∨ behind.head? = some 42)

def WordEnds (rest : Bytes) : Prop :=
  ∃ byte behind, rest = byte :: behind ∧ isWordByte byte = false

/-- A token, a text it is written as, and a text that may follow there. -/
inductive Spelling : Token → Bytes → Bytes → Prop
  | quoted {raw text rest : Bytes} : Escaped raw text →
      Spelling ⟨.cstr, text⟩ (34 :: raw ++ [34]) rest
  | punctuation {byte : UInt8} {rest : Bytes} : isPunctuation byte = true →
      Spelling ⟨.plainstr, [byte]⟩ [byte] rest
  | word {text rest : Bytes} : text.head?.any isalpha = true → (∀ byte ∈ text, isWordByte byte = true) →
      WordEnds rest → Spelling ⟨.plainstr, text⟩ text rest
  | number {text rest : Bytes} : text.head?.any isdigit = true → isNumberText text = true →
      NumberEnds rest → Spelling ⟨.plainstr, text⟩ text rest

inductive Rendered : Bytes → List Token → Prop
  | nil {gap : Bytes} : Gap gap → Rendered gap []
  | cons {gap spelling rest : Bytes} {token : Token} {tokens : List Token} : Gap gap →
      Spelling token spelling rest → Rendered rest tokens →
      Rendered (gap ++ (spelling ++ rest)) (token :: tokens)

/-! ### The tokens are found -/

theorem scanQuoted_escaped {raw text : Bytes} (escaped : Escaped raw text) (rest : Bytes) :
    scanQuoted (raw ++ 34 :: rest) = .closed text rest := by
  induction escaped with
  | nil => simp
  | plain notQuote notEscape _ ih =>
      rw [List.cons_append, scanQuoted_plain _ notQuote notEscape, ih]
      rfl
  | escape known _ ih =>
      rw [List.cons_append, List.cons_append, scanQuoted_escape, if_neg known, ih]
      rfl

theorem scanWord_text {text rest : Bytes} (inside : ∀ byte ∈ text, isWordByte byte = true)
    (ends : WordEnds rest) : scanWord (text ++ rest) = some (text, rest) := by
  induction text with
  | nil =>
      obtain ⟨byte, behind, rfl, outside⟩ := ends
      simp [scanWord, outside]
  | cons byte text ih =>
      simp only [List.mem_cons, forall_eq_or_imp] at inside
      simp [scanWord, inside.1, ih inside.2]

theorem scanNumber_text {text rest : Bytes} (inside : isNumberText text = true)
    (ends : NumberEnds rest) : scanNumber (text ++ rest) = some (text, rest) := by
  induction text with
  | nil =>
      obtain ⟨byte, behind, rfl, notDigit, notDot, slash⟩ := ends
      rw [List.nil_append, scanNumber_step]
      by_cases isSlash : byte = 47
      · subst isSlash
        have comment := slash rfl
        have stops : numberGoes 47 behind = false := by
          cases behind with
          | nil => simp at comment
          | cons after behind =>
              rcases comment with next | next
              all_goals
                obtain rfl := Option.some.inj next
                simp [numberGoes, isdigit]
        simp [stops, comment]
      · simp [numberGoes, notDigit, notDot, isSlash]
  | cons byte text ih =>
      simp only [isNumberText, Bool.and_eq_true] at inside
      have goes : numberGoes byte (text ++ rest) = true := by
        rw [numberGoes_append rest]
        · exact inside.1
        · rintro rfl rfl
          simp [numberGoes, isdigit] at inside
      rw [List.cons_append, scanNumber_goes goes, ih inside.2]
      rfl

theorem Spelling.form {token : Token} {spelling rest : Bytes}
    (spelled : Spelling token spelling rest) :
    TokenForm (spelling ++ rest) token.copytype token.text rest := by
  cases spelled with
  | quoted escaped =>
      have scanned := scanQuoted_escaped escaped rest
      simpa using TokenForm.quoted scanned
  | punctuation byte => exact .punctuation byte
  | word first inside ends =>
      refine .word ?_ (scanWord_text inside ends)
      cases spelling with
      | nil => simp at first
      | cons byte text => simpa using first
  | number first inside ends =>
      refine .number ?_ (scanNumber_text inside ends)
      cases spelling with
      | nil => simp at first
      | cons byte text => simpa using first

theorem not_space_of_first {byte : UInt8}
    (first : (isdigit byte || isalpha byte || isPunctuation byte) = true) : isspace byte = false := by
  have checked := forall_byte (fun byte =>
    !(isdigit byte || isalpha byte || isPunctuation byte) || !isspace byte) (by decide +kernel) byte
  simpa [first] using checked

theorem TokenForm.first_not_space {start text rest : Bytes} {copytype : Copytype}
    (form : TokenForm start copytype text rest) : start.dropWhile isspace = start := by
  have bytes : ∀ {byte : UInt8} (body : Bytes), isspace byte = false →
      (byte :: body).dropWhile isspace = byte :: body := by
    intro byte body notSpace
    simp [notSpace]
  cases form with
  | quoted scanned => exact bytes _ rfl
  | number first scanned =>
      cases start with
      | nil => rfl
      | cons byte body => exact bytes body (not_space_of_first (by simp_all))
  | word first scanned =>
      cases start with
      | nil => rfl
      | cons byte body => exact bytes body (not_space_of_first (by simp_all))
  | punctuation first => exact bytes _ (not_space_of_first (by simp [first]))
  | mark second => exact bytes _ rfl

theorem gettoken_of_form {start text rest : Bytes} {copytype : Copytype}
    (form : TokenForm start copytype text rest) : gettoken start = .token copytype text rest := by
  rw [gettoken, form.first_not_space]
  exact tokenAt_of_form form

theorem afterComment_body {body : Bytes} (noEnd : ¬[42, 47] <:+: body) (rest : Bytes) :
    afterComment (body ++ 42 :: 47 :: rest) = some rest := by
  induction body with
  | nil => simp [afterComment]
  | cons byte body ih =>
      have inner : ¬[42, 47] <:+: body := fun inside => noEnd (inside.trans (List.suffix_cons _ _).isInfix)
      rw [List.cons_append, afterComment]
      · exact ih inner
      · rintro behind rfl same
        cases body with
        | nil => simp at same
        | cons after body =>
            obtain ⟨rfl, -⟩ := List.cons.inj same
            exact noEnd ⟨[], body, rfl⟩

theorem strchr_body {body : Bytes} (oneLine : 10 ∉ body) (rest : Bytes) :
    strchr (body ++ 10 :: rest) 10 = some (10 :: rest) := by
  refine strchr_eq_some_iff.mpr ⟨?_, List.cons_ne_nil _ _⟩
  rw [List.dropWhile_append_of_pos]
  · simp
  · intro byte member
    simp only [ne_eq, decide_not, Bool.not_eq_eq_eq_not, Bool.not_true, decide_eq_false_iff_not]
    rintro rfl
    exact oneLine member

section

variable {comments : Copytype → Bool} (plain : comments .plainstr = true)

include plain in
theorem readText_gap {gap : Bytes} (blank : Gap gap) (text : Bytes) :
    readText comments (gap ++ text) = readText comments text := by
  induction blank with
  | nil => rfl
  | @space byte gap white _ ih =>
      rw [← ih]
      apply readText_congr
      have same : gettoken (byte :: gap ++ text) = gettoken (gap ++ text) := by
        simp [gettoken, white]
      rw [lexStep, same, ← lexStep]
  | @line body gap oneLine _ ih =>
      have scanned : gettoken (47 :: 47 :: (body ++ 10 :: (gap ++ text))) =
          .token .plainstr [47, 47] (body ++ 10 :: (gap ++ text)) := gettoken_of_form (.mark (.inl rfl))
      have step : lexStep comments (47 :: 47 :: (body ++ 10 :: (gap ++ text))) = .skip (gap ++ text) := by
        simp [lexStep, scanned, plain, strchr_body oneLine]
      simp only [List.cons_append, List.append_assoc]
      rw [readText_step, step]
      exact ih
  | @block body gap noEnd _ ih =>
      have scanned : gettoken (47 :: 42 :: (body ++ 42 :: 47 :: (gap ++ text))) =
          .token .plainstr [47, 42] (body ++ 42 :: 47 :: (gap ++ text)) :=
        gettoken_of_form (.mark (.inr rfl))
      have step : lexStep comments (47 :: 42 :: (body ++ 42 :: 47 :: (gap ++ text))) =
          .skip (gap ++ text) := by
        simp [lexStep, scanned, plain, afterComment_body noEnd]
      simp only [List.cons_append, List.append_assoc]
      rw [readText_step, step]
      exact ih

theorem readText_spelling {token : Token} {spelling rest : Bytes}
    (spelled : Spelling token spelling rest)
    (unmarked : ¬(comments token.copytype = true ∧ isMarkText token.text = true)) :
    readText comments (spelling ++ rest) = (readText comments rest).push token := by
  have scanned := gettoken_of_form spelled.form
  have step : lexStep comments (spelling ++ rest) = .token token rest := by
    simp only [isMarkText, Bool.or_eq_true, beq_iff_eq] at unmarked
    rw [lexStep, scanned]
    simp only
    rw [if_neg (fun line => unmarked ⟨line.1, .inl line.2⟩),
      if_neg (fun block => unmarked ⟨block.1, .inr block.2⟩)]
  rw [readText_step, step]

end

theorem Spelling.plain_unmarked {token : Token} {spelling rest : Bytes}
    (spelled : Spelling token spelling rest) (plain : token.copytype = .plainstr) :
    isMarkText token.text = false := by
  cases spelled with
  | quoted _ => cases plain
  | punctuation byte => simp [isMarkText]
  | word first _ _ =>
      cases spelling with
      | nil => rfl
      | cons byte text =>
          simp only [List.head?_cons, Option.any_some] at first
          have notSlash : byte ≠ 47 := by
            rintro rfl
            exact absurd first (by decide)
          simp [isMarkText, notSlash]
  | number first _ _ =>
      cases spelling with
      | nil => rfl
      | cons byte text =>
          simp only [List.head?_cons, Option.any_some] at first
          have notSlash : byte ≠ 47 := by
            rintro rfl
            exact absurd first (by decide)
          simp [isMarkText, notSlash]

/-- The tokens that a file is made of are the tokens found in it. -/
theorem Rendered.lexes {file : Bytes} {tokens : List Token} (rendered : Rendered file tokens) :
    readText plainMark file = ⟨tokens, .rest []⟩ := by
  induction rendered with
  | @nil gap blank =>
      have nothing := readText_gap (rfl : plainMark .plainstr = true) blank []
      rw [List.append_nil] at nothing
      rw [nothing]
      rfl
  | @cons gap spelling rest token tokens blank spelled _ ih =>
      have unmarked : ¬(plainMark token.copytype = true ∧ isMarkText token.text = true) := by
        rintro ⟨starts, marked⟩
        cases kind : token.copytype with
        | cstr => simp [kind, plainMark] at starts
        | plainstr => simp [spelled.plain_unmarked kind] at marked
      rw [readText_gap rfl blank, readText_spelling spelled unmarked, ih]
      rfl

/-! ### Files of the same tokens -/

section

variable {platform : Platform} {sections : List (ParserSection Memory)}

variable (platform sections) in
/-- The parser has stopped in front of every string that spells the mark of a comment. -/
def StopsBeforeMarks (vars : ParserVars Memory) (tokens : List Token) : Prop :=
  ∀ before token after, tokens = before ++ token :: after → token.isQuotedMark = true →
    ((before.map (·.text)).foldl (next platform sections) vars).stopped = true

theorem StopsBeforeMarks.of_cons {vars : ParserVars Memory} {token : Token} {tokens : List Token}
    (stops : StopsBeforeMarks platform sections vars (token :: tokens)) (going : vars.stopped = false) :
    token.isQuotedMark = false ∧
      StopsBeforeMarks platform sections (vars.token platform sections token.text) tokens := by
  constructor
  · cases marked : token.isQuotedMark with
    | false => rfl
    | true =>
        have stopped := stops [] token tokens rfl marked
        simp only [List.map_nil, List.foldl_nil] at stopped
        rw [going] at stopped
        cases stopped
  · rintro before other after rfl marked
    have stopped := stops (token :: before) other after rfl marked
    simpa [next, going] using stopped

theorem outcome_everyMark (text : Bytes) : ∀ {vars : ParserVars Memory} (seen : List Bytes),
    StopsBeforeMarks platform sections vars (readText plainMark text).tokens →
      outcome platform sections vars seen (readText everyMark text) =
        outcome platform sections vars seen (readText plainMark text) := by
  induction text using lex_induction plainMark with
  | stop text ending step =>
      intro vars seen _
      rw [readText_step text, readText_step text, lexStep_everyMark (by simp [step]), step]
  | skip text rest step ih =>
      intro vars seen stops
      rw [readText_step text, step] at stops
      rw [readText_step text, readText_step text, lexStep_everyMark (by simp [step]), step]
      exact ih seen stops
  | token text token rest step ih =>
      intro vars seen stops
      cases going : vars.stopped with
      | true => rw [outcome_of_stopped going, outcome_of_stopped going]
      | false =>
          rw [readText_step text, step] at stops
          obtain ⟨unmarked, later⟩ := StopsBeforeMarks.of_cons stops going
          rw [readText_step text, readText_step text, lexStep_everyMark (by simp_all), step]
          simp only
          rw [outcome_push going, outcome_push going]
          exact ih _ later

/-- A file that ends in a newline and holds no NUL. -/
structure TextFile (file : Bytes) : Prop where
  complete : Complete 10 file
  nulFree : 0 ∉ file

theorem parserRun_rendered {memory : Memory} {file : Bytes} {tokens : List Token}
    (text : TextFile file) (rendered : Rendered file tokens)
    (stops : StopsBeforeMarks platform sections (.start memory) tokens) :
    parserRun platform sections memory file =
      { vars := (outcome platform sections (.start memory) [] ⟨tokens, .rest []⟩).1.finish
        tokens := (outcome platform sections (.start memory) [] ⟨tokens, .rest []⟩).2 } := by
  have same := outcome_everyMark file [] (by rwa [rendered.lexes])
  rw [parserRun_eq platform sections memory text.nulFree, text.complete.whole_eq, same,
    rendered.lexes]

end

/-! ### A table of sections that refuses nothing -/

def permissiveEntries (words : List Bytes) : List (ParserEntry Unit) :=
  words.map fun key => { key := key, type := .pchar, store := fun _ memory => memory }

def permissive (words : List Bytes) : List (ParserSection Unit) :=
  words.map fun name =>
    { name := name, onenter := none, onexit := none, entries := permissiveEntries words }

section

variable {platform : Platform} {words : List Bytes}

theorem find_permissive {name : Bytes} (known : name ∈ words) :
    ∃ found ∈ permissive words, (permissive words).find? (·.name == name) = some found := by
  cases found : (permissive words).find? (·.name == name) with
  | none =>
      rw [List.find?_eq_none] at found
      have missing := found _ (List.mem_map_of_mem known)
      simp at missing
  | some current => exact ⟨current, List.mem_of_find?_eq_some found, rfl⟩

variable (platform) in
theorem permissive_assign {current : ParserSection Unit} (listed : current ∈ permissive words)
    {key : Bytes} (known : key ∈ words) (value : Bytes) (effect : Effect Unit) :
    ∃ after, runAssign platform current effect (key, value) = some after := by
  obtain ⟨name, -, rfl⟩ := List.mem_map.mp listed
  unfold runAssign
  simp only
  cases found : (permissiveEntries words).find? (·.key == key) with
  | none =>
      rw [List.find?_eq_none] at found
      have missing := found _ (List.mem_map_of_mem known)
      simp at missing
  | some entry =>
      obtain ⟨other, -, rfl⟩ := List.mem_map.mp (List.mem_of_find?_eq_some found)
      exact ⟨_, rfl⟩

theorem permissive_hooks {current : ParserSection Unit} (listed : current ∈ permissive words) :
    current.onenter = none ∧ current.onexit = none := by
  obtain ⟨name, -, rfl⟩ := List.mem_map.mp listed
  exact ⟨rfl, rfl⟩

/-- Where a parser with any table of sections is, seen without the section itself. -/
structure Place where
  inside : Bool
  sectionToken : Option Bytes
  keyToken : Option Bytes
  valueToken : Option Bytes

def ParserVars.place (vars : ParserVars Memory) : Place where
  inside := vars.parserSection.isSome
  sectionToken := vars.sectionToken
  keyToken := vars.keyToken
  valueToken := vars.valueToken

structure PermissiveRun (words : List Bytes) (vars : ParserVars Unit) : Prop where
  going : vars.stopped = false
  listed : ∀ current ∈ vars.parserSection, current ∈ permissive words
  named : ∀ name ∈ vars.sectionToken, name ∈ words
  keyed : ∀ key ∈ vars.keyToken, key ∈ words
  inside : vars.parserSection ≠ none → vars.sectionToken = none
  valued : vars.keyToken = none → vars.valueToken = none

theorem running_of_going {vars : ParserVars Memory} (going : vars.stopped = false) :
    vars = running vars.parserSection vars.sectionToken vars.keyToken vars.valueToken
      (vars.memory, vars.calls) := by
  obtain ⟨current, sectionToken, key, value, memory, calls, errors, aborted⟩ := vars
  simp only [ParserVars.stopped, ParserVars.error, Bool.or_eq_false_iff, Bool.not_eq_eq_eq_not,
    Bool.not_false, List.isEmpty_iff] at going
  obtain ⟨rfl, rfl⟩ := going
  rfl

/-- The permissive parser goes on, and is where the other one is. -/
def Tracks (words : List Bytes) (vars : ParserVars Memory) (other : ParserVars Unit) : Prop :=
  PermissiveRun words other ∧ vars.place = other.place

section Tracks

variable {sections : List (ParserSection Memory)} {current : ParserSection Memory}
  {table : ParserSection Unit} {sectionToken key value : Option Bytes} {effect : Effect Memory}
  {idle : Effect Unit} {text name : Bytes}

theorem tracks_outside (named : ∀ name ∈ sectionToken, name ∈ words)
    (keyed : ∀ word ∈ key, word ∈ words) (valued : key = none → value = none) :
    Tracks words (running none sectionToken key value effect)
      (running none sectionToken key value idle) :=
  ⟨⟨rfl, by simp [running], named, keyed, by simp [running], valued⟩, rfl⟩

theorem tracks_inside (listed : table ∈ permissive words) (keyed : ∀ word ∈ key, word ∈ words)
    (valued : key = none → value = none) :
    Tracks words (running (some current) none key value effect)
      (running (some table) none key value idle) :=
  ⟨⟨rfl, by simpa [running] using listed, by simp [running], keyed, by simp [running], valued⟩, rfl⟩

theorem close_permissive (platform : Platform) (listed : table ∈ permissive words) :
    (running (some table) none key value idle).token platform (permissive words) [125] =
      running none none key value idle := by
  apply close_of_ran
  rw [(permissive_hooks listed).2]
  rfl

theorem open_permissive (platform : Platform) (known : name ∈ words) (key value : Option Bytes)
    (idle : Effect Unit) : ∃ table ∈ permissive words,
    (running none (some name) key value idle).token platform (permissive words) [123] =
      running (some table) none key value idle := by
  obtain ⟨table, listed, found⟩ := find_permissive known
  refine ⟨table, listed, open_of_ran found ?_⟩
  rw [(permissive_hooks listed).1]
  rfl

theorem tracks_open (named : name ∈ words) (keyed : ∀ word ∈ key, word ∈ words)
    (valued : key = none → value = none)
    (goesOn : ((running none (some name) key value effect).token platform sections text).stopped =
      false) :
    Tracks words ((running none (some name) key value effect).token platform sections text)
      ((running none (some name) key value idle).token platform (permissive words) text) := by
  by_cases opens : text = [123]
  · subst opens
    obtain ⟨found, after, -, -, opened⟩ := open_of_going goesOn
    obtain ⟨table, listed, openedToo⟩ := open_permissive platform named key value idle
    rw [opened, openedToo]
    exact tracks_inside listed keyed valued
  · rw [token_named_stops opens] at goesOn
    cases goesOn

theorem tracks_terminate (listed : table ∈ permissive words) (keyed : ∀ word ∈ key, word ∈ words)
    (goesOn : ((running (some current) none key value effect).token platform sections [59]).stopped =
      false) :
    Tracks words ((running (some current) none key value effect).token platform sections [59])
      ((running (some table) none key value idle).token platform (permissive words) [59]) := by
  cases value with
  | none =>
      rw [token_terminate_stops] at goesOn
      cases goesOn
  | some value =>
      cases key with
      | none => simp [ParserVars.token, terminate, running, ParserVars.stopped] at goesOn
      | some key =>
          obtain ⟨after, -, assigned⟩ := terminate_of_going goesOn
          obtain ⟨later, ran⟩ := permissive_assign platform listed (keyed key rfl) value idle
          rw [assigned, terminate_of_ran ran]
          exact tracks_inside listed (by simp) (fun _ => rfl)

theorem tracks_punctuation (listed : table ∈ permissive words) (keyed : ∀ word ∈ key, word ∈ words)
    (valued : key = none → value = none) (punctuation : isPunctuationText text = true)
    (goesOn : ((running (some current) none key value effect).token platform sections text).stopped =
      false) :
    Tracks words ((running (some current) none key value effect).token platform sections text)
      ((running (some table) none key value idle).token platform (permissive words) text) := by
  rcases punctuationText_cases punctuation with rfl | rfl | rfl | rfl
  · rw [token_nested_stops] at goesOn
    cases goesOn
  · obtain ⟨after, -, closed⟩ := close_of_going goesOn
    rw [closed, close_permissive platform listed]
    exact tracks_outside (by simp) keyed valued
  · cases key with
    | none =>
        rw [token_assignment] at goesOn
        simp at goesOn
    | some key =>
        rw [token_assignment, token_assignment]
        exact tracks_inside listed keyed valued
  · exact tracks_terminate listed keyed goesOn

theorem tracks_word (listed : table ∈ permissive words) (known : text ∈ words)
    (keyed : ∀ word ∈ key, word ∈ words) (valued : key = none → value = none)
    (word : isPunctuationText text = false)
    (goesOn : ((running (some current) none key value effect).token platform sections text).stopped =
      false) :
    Tracks words ((running (some current) none key value effect).token platform sections text)
      ((running (some table) none key value idle).token platform (permissive words) text) := by
  cases key with
  | none =>
      obtain rfl := valued rfl
      rw [word_key word, word_key word]
      exact tracks_inside listed (by simpa using known) (by simp)
  | some key =>
      cases value with
      | none =>
          rw [word_value word, word_value word]
          exact tracks_inside listed keyed (by simp)
      | some value =>
          rw [token_third_word_stops word] at goesOn
          cases goesOn

/-- A token that does not stop some parser does not stop the permissive one. -/
theorem Tracks.token {vars : ParserVars Memory} {other : ParserVars Unit}
    (follows : Tracks words vars other) (known : text ∈ words) (going : vars.stopped = false)
    (goesOn : (vars.token platform sections text).stopped = false) :
    Tracks words (vars.token platform sections text)
      (other.token platform (permissive words) text) := by
  obtain ⟨permissiveRun, same⟩ := follows
  obtain ⟨current, sectionToken, key, value, effect, rfl⟩ :
      ∃ current sectionToken key value effect,
        vars = running current sectionToken key value effect := ⟨_, _, _, _, _, running_of_going going⟩
  obtain ⟨current', sectionToken', key', value', effect', rfl⟩ :
      ∃ current sectionToken key value effect,
        other = running current sectionToken key value effect :=
    ⟨_, _, _, _, _, running_of_going permissiveRun.going⟩
  simp only [ParserVars.place, running, Place.mk.injEq] at same
  obtain ⟨sameSection, rfl, rfl, rfl⟩ := same
  obtain ⟨-, listed, named, keyed, inside, valued⟩ := permissiveRun
  simp only [running] at listed named keyed inside valued
  cases current' with
  | none =>
      obtain rfl : current = none := by simpa using sameSection
      cases sectionToken with
      | none =>
          cases word : isPunctuationText text with
          | true =>
              rw [token_outside_stops word] at goesOn
              cases goesOn
          | false =>
              rw [word_outside word, word_outside word]
              exact tracks_outside (by simpa using known) keyed valued
      | some name => exact tracks_open (named name rfl) keyed valued goesOn
  | some table =>
      obtain ⟨current, rfl⟩ : ∃ found, current = some found := by
        cases current with
        | none => simp at sameSection
        | some found => exact ⟨found, rfl⟩
      obtain rfl : sectionToken = none := inside (by simp)
      cases word : isPunctuationText text with
      | true => exact tracks_punctuation (listed table rfl) keyed valued word goesOn
      | false => exact tracks_word (listed table rfl) known keyed valued word goesOn

end Tracks

theorem Tracks.foldl {sections : List (ParserSection Memory)} {texts : List Bytes} :
    ∀ {vars : ParserVars Memory} {other : ParserVars Unit}, Tracks words vars other →
    (∀ text ∈ texts, text ∈ words) → vars.stopped = false →
    (texts.foldl (next platform sections) vars).stopped = false →
    PermissiveRun words (texts.foldl (next platform (permissive words)) other) := by
  induction texts with
  | nil =>
      intro vars other follows _ _ _
      exact follows.1
  | cons text texts ih =>
      intro vars other follows known going goesOn
      simp only [List.mem_cons, forall_eq_or_imp] at known
      simp only [List.foldl_cons, next, going, follows.1.going, Bool.false_eq_true,
        ↓reduceIte] at goesOn ⊢
      cases goes : (vars.token platform sections text).stopped with
      | true =>
          rw [foldl_next_of_stopped goes, goes] at goesOn
          cases goesOn
      | false =>
          exact ih (follows.token known.1 going goes) known.2 goes goesOn

/-! ### Every place can be completed -/

def completion (place : Place) : List Bytes :=
  (if place.inside then [] else if place.sectionToken.isSome then [[123]] else [[120], [123]]) ++
    (if place.keyToken.isNone then [[125]]
      else if place.valueToken.isNone then [[120], [59], [125]]
      else [[59], [125]])

variable (platform)

theorem comes_inside {current : ParserSection Unit} (listed : current ∈ permissive words)
    {key value : Option Bytes} (keyed : ∀ text ∈ key, text ∈ words)
    (valued : key = none → value = none) (effect : Effect Unit) :
    ∃ final, Comes platform (permissive words)
      (if key.isNone then [[125]] else if value.isNone then [[120], [59], [125]] else [[59], [125]])
      (running (some current) none key value effect) final := by
  cases key with
  | none =>
      obtain rfl := valued rfl
      exact ⟨effect, close_permissive platform listed⟩
  | some key =>
      have known := keyed key rfl
      cases value with
      | none =>
          obtain ⟨after, ran⟩ := permissive_assign platform listed known [120] effect
          refine ⟨after, ?_⟩
          simp only [Comes, Option.isNone_some, Bool.false_eq_true, ↓reduceIte, Option.isNone_none,
            List.foldl_cons, List.foldl_nil, next_running, word_value (show isPunctuationText [120] = false from rfl),
            terminate_of_ran ran, close_permissive platform listed]
      | some value =>
          obtain ⟨after, ran⟩ := permissive_assign platform listed known value effect
          refine ⟨after, ?_⟩
          simp only [Comes, Option.isNone_some, Bool.false_eq_true, ↓reduceIte,
            List.foldl_cons, List.foldl_nil, next_running, terminate_of_ran ran,
            close_permissive platform listed]

theorem PermissiveRun.completes {vars : ParserVars Unit} (follows : PermissiveRun words vars)
    (spare : [120] ∈ words) :
    ∃ final, Comes platform (permissive words) (completion vars.place) vars final := by
  obtain ⟨current, sectionToken, key, value, effect, rfl⟩ :
      ∃ current sectionToken key value effect,
        vars = running current sectionToken key value effect :=
    ⟨_, _, _, _, _, running_of_going follows.going⟩
  obtain ⟨-, listed, named, keyed, inside, valued⟩ := follows
  simp only [running] at listed named keyed inside valued
  cases current with
  | some current =>
      obtain rfl := inside (by simp)
      exact comes_inside platform (listed current rfl) keyed valued effect
  | none =>
      cases sectionToken with
      | some name =>
          obtain ⟨current, listedToo, opened⟩ := open_permissive platform (named name rfl) key value
            effect
          obtain ⟨final, comes⟩ := comes_inside platform listedToo keyed valued effect
          refine ⟨final, ?_⟩
          unfold Comes at comes ⊢
          rw [← comes, ← opened]
          rfl
      | none =>
          obtain ⟨current, listedToo, opened⟩ := open_permissive platform spare key value effect
          obtain ⟨final, comes⟩ := comes_inside platform listedToo keyed valued effect
          refine ⟨final, ?_⟩
          unfold Comes at comes ⊢
          rw [← comes, ← opened]
          rfl

end

/-! ### Two layouts that the parser treats differently -/

/-- Text that `gettoken` waits for the end of for ever. -/
def stuck : Bytes := ascii "1/x"

theorem readText_stuck (comments : Copytype → Bool) (text : Bytes) :
    readText comments (stuck ++ text) = ⟨[], .rest (stuck ++ text)⟩ := by
  have scanned : gettoken (49 :: 47 :: 120 :: text) = .incomplete (49 :: 47 :: 120 :: text) := by
    simp [gettoken, isspace, tokenAt, isdigit, scanNumber_step, numberGoes, plainToken]
  have step : lexStep comments (stuck ++ text) = .stop (.rest (stuck ++ text)) := by
    change lexStep comments (49 :: 47 :: 120 :: text) = .stop (.rest (49 :: 47 :: 120 :: text))
    simp [lexStep, scanned]
  rw [readText_step, step]

theorem readText_bad (comments : Copytype → Bool) (text : Bytes) :
    readText comments (64 :: text) = ⟨[], .invalid (ascii "unexpected char")⟩ := by
  have scanned : gettoken (64 :: text) = .invalid (ascii "unexpected char") (64 :: text) := by
    simp [gettoken, isspace, tokenAt, isdigit, isalpha, isPunctuation]
  rw [readText_step, lexStep, scanned]

def spaced (texts : List Bytes) : Bytes :=
  texts.flatMap (· ++ [32])

theorem readText_spaced {comments : Copytype → Bool} (plain : comments .plainstr = true)
    {texts : List Bytes} (simple : ∀ text ∈ texts, text ∈ [[120], [123], [125], [59]])
    (rest : Bytes) :
    readText comments (spaced texts ++ rest) =
      (readText comments rest).prepend (texts.map fun text => ⟨.plainstr, text⟩) := by
  induction texts with
  | nil => rfl
  | cons text texts ih =>
      simp only [List.mem_cons, forall_eq_or_imp] at simple
      have spelled : Spelling ⟨.plainstr, text⟩ text (32 :: (spaced texts ++ rest)) := by
        simp only [List.not_mem_nil, or_false] at simple
        rcases simple.1 with rfl | rfl | rfl | rfl
        · exact .word (by decide) (List.all_eq_true.mp (by decide)) ⟨32, _, rfl, by decide⟩
        all_goals exact .punctuation (by decide)
      have shape : spaced (text :: texts) ++ rest = text ++ (32 :: (spaced texts ++ rest)) := by
        simp [spaced]
      have unmarked : ¬(comments Copytype.plainstr = true ∧ isMarkText text = true) := by
        simp [spelled.plain_unmarked rfl]
      have white := readText_gap plain (.space (by decide : isspace 32 = true) .nil)
        (spaced texts ++ rest)
      rw [shape, readText_spelling spelled unmarked]
      simp only [List.cons_append, List.nil_append] at white
      rw [white, ih (by simpa using simple.2)]
      rfl

/-- A token that can be written down, in front of a newline. -/
def Token.WellFormed (token : Token) : Prop :=
  ∃ spelling, Spelling token spelling [10] ∧ 0 ∉ spelling

theorem Spelling.newline {token : Token} {spelling : Bytes} (spelled : Spelling token spelling [10])
    (rest : Bytes) : Spelling token spelling (10 :: rest) := by
  cases spelled with
  | quoted escaped => exact .quoted escaped
  | punctuation byte => exact .punctuation byte
  | word first inside _ => exact .word first inside ⟨10, rest, rfl, by decide⟩
  | number first inside _ => exact .number first inside ⟨10, rest, rfl, by decide, by decide, by simp⟩

theorem Gap.append {first second : Bytes} (blank : Gap first) (later : Gap second) :
    Gap (first ++ second) := by
  induction blank with
  | nil => exact later
  | space white _ ih => exact .space white ih
  | @line body gap oneLine _ ih =>
      simpa using Gap.line oneLine ih
  | @block body gap noEnd _ ih =>
      simpa using Gap.block noEnd ih

theorem Rendered.after_gap {gap rest : Bytes} {tokens : List Token} (blank : Gap gap)
    (rendered : Rendered rest tokens) : Rendered (gap ++ rest) tokens := by
  cases rendered with
  | nil later => exact .nil (blank.append later)
  | cons later spelled rendered =>
      rw [← List.append_assoc]
      exact .cons (blank.append later) spelled rendered

theorem exists_front (tokens : List Token) (wellFormed : ∀ token ∈ tokens, token.WellFormed) :
    ∃ front, 0 ∉ front ∧
      (∀ rest others, Rendered rest others → Rendered (front ++ rest) (tokens ++ others)) ∧
      (∀ rest, (∀ token ∈ tokens, token.isQuotedMark = false) →
        readText everyMark (front ++ rest) = (readText everyMark rest).prepend tokens) := by
  induction tokens with
  | nil => exact ⟨[], by simp, fun _ _ rendered => rendered, fun _ _ => rfl⟩
  | cons token tokens ih =>
      simp only [List.mem_cons, forall_eq_or_imp] at wellFormed
      obtain ⟨spelling, spelled, noNul⟩ := wellFormed.1
      obtain ⟨front, nulFree, renders, reads⟩ := ih wellFormed.2
      have white : Gap [10] := .space (by decide) .nil
      refine ⟨spelling ++ 10 :: front, by simp [noNul, nulFree], ?_, ?_⟩
      · intro rest others rendered
        have later := (renders rest others rendered).after_gap white
        have all := Rendered.cons .nil (spelled.newline (front ++ rest)) later
        simpa using all
      · intro rest unmarked
        simp only [List.mem_cons, forall_eq_or_imp] at unmarked
        have notMark : ¬(everyMark token.copytype = true ∧ isMarkText token.text = true) := by
          rintro ⟨-, marked⟩
          cases kind : token.copytype with
          | cstr => simp [Token.isQuotedMark, kind, marked] at unmarked
          | plainstr => simp [spelled.plain_unmarked kind] at marked
        have blank := readText_gap (rfl : everyMark .plainstr = true) white (front ++ rest)
        simp only [List.cons_append, List.nil_append] at blank
        rw [List.append_assoc, List.cons_append,
          readText_spelling (spelled.newline (front ++ rest)) notMark, blank, reads rest unmarked.2]
        rfl

/-- A comment behind a string that spells a mark, in which the parser reads `shown`. -/
def unmask (mark shown : Bytes) : Bytes :=
  if mark = [47, 47] then 47 :: 42 :: (10 :: shown) ++ [42, 47] else 47 :: 47 :: (42 :: 47 :: shown) ++ [10]

theorem unmask_gap (mark : Bytes) {shown : Bytes} (noStar : 42 ∉ shown) (oneLine : 10 ∉ shown) :
    Gap (unmask mark shown) := by
  unfold unmask
  split
  · refine .block ?_ .nil
    intro inside
    have member := inside.subset (show (42 : UInt8) ∈ [42, 47] by simp)
    simp [noStar] at member
  · refine .line ?_ .nil
    simp [oneLine]

theorem unmask_nulFree {mark shown : Bytes} (nulFree : 0 ∉ shown) : 0 ∉ unmask mark shown := by
  unfold unmask
  split
  all_goals simp [nulFree]

theorem quotedMark_cases {token : Token} (marked : token.isQuotedMark = true) :
    token = ⟨.cstr, [47, 47]⟩ ∨ token = ⟨.cstr, [47, 42]⟩ := by
  obtain ⟨copytype, text⟩ := token
  simp only [Token.isQuotedMark, isMarkText, Bool.and_eq_true, beq_iff_eq, Bool.or_eq_true] at marked
  obtain ⟨rfl, rfl | rfl⟩ := marked
  · exact .inl rfl
  · exact .inr rfl

theorem quotedMark_spelling {token : Token} (marked : token.isQuotedMark = true) (rest : Bytes) :
    Spelling token (34 :: token.text ++ [34]) rest := by
  rcases quotedMark_cases marked with rfl | rfl
  all_goals
    refine .quoted ?_
    exact .plain (by decide) (by decide) (.plain (by decide) (by decide) .nil)

/-- Behind the string the parser reads what the language takes for a comment. -/
theorem readText_unmask {token : Token} (marked : token.isQuotedMark = true) (shown rest : Bytes) :
    ∃ behind, readText everyMark ((34 :: token.text ++ [34]) ++ (unmask token.text shown ++ rest)) =
      readText everyMark (shown ++ behind) := by
  have scanned := gettoken_of_form
    (quotedMark_spelling marked (unmask token.text shown ++ rest)).form
  rw [readText_step, lexStep, scanned]
  rcases quotedMark_cases marked with rfl | rfl
  · refine ⟨42 :: 47 :: rest, ?_⟩
    have line := strchr_body (show (10 : UInt8) ∉ [47, 42] by decide) (shown ++ 42 :: 47 :: rest)
    simp only [List.cons_append, List.nil_append] at line
    simp [everyMark, unmask, line]
  · refine ⟨10 :: rest, ?_⟩
    simp [everyMark, unmask, afterComment]

theorem exists_layout {before after : List Token} {token : Token} (shown : Bytes)
    (wellFormed : ∀ other ∈ before ++ token :: after, other.WellFormed)
    (marked : token.isQuotedMark = true) (first : ∀ other ∈ before, other.isQuotedMark = false)
    (noStar : 42 ∉ shown) (oneLine : 10 ∉ shown) (nulFree : 0 ∉ shown) :
    ∃ file behind, TextFile file ∧ Rendered file (before ++ token :: after) ∧
      readText everyMark file = (readText everyMark (shown ++ behind)).prepend before := by
  obtain ⟨front, frontNulFree, renders, reads⟩ :=
    exists_front before fun other member => wellFormed other (by simp [member])
  obtain ⟨back, backNulFree, backRenders, -⟩ :=
    exists_front after fun other member => wellFormed other (by simp [member])
  have ending : Rendered (back ++ [10]) after := by
    simpa using backRenders [10] [] (.nil (.space (by decide) .nil))
  have commented := ending.after_gap (unmask_gap token.text noStar oneLine)
  have middle := Rendered.cons .nil (quotedMark_spelling marked _) commented
  obtain ⟨behind, shows⟩ := readText_unmask marked shown (back ++ [10])
  refine ⟨front ++ ((34 :: token.text ++ [34]) ++ (unmask token.text shown ++ (back ++ [10]))), behind,
    ⟨?_, ?_⟩, renders _ _ middle, ?_⟩
  · simp only [← List.append_assoc]
    exact complete_concat _
  · have textNulFree : 0 ∉ token.text := by
      rcases quotedMark_cases marked with rfl | rfl
      all_goals decide
    have gapNulFree : 0 ∉ unmask token.text shown := unmask_nulFree nulFree
    simp [frontNulFree, textNulFree, gapNulFree, backNulFree]
  · rw [reads _ first, shows]

/-- Whatever the layout, the parser makes the same calls and returns the same. -/
def LayoutInvariant (tokens : List Token) : Prop :=
  ∀ (Memory : Type) (platform : Platform) (sections : List (ParserSection Memory)) (memory : Memory)
    (first second : Bytes), TextFile first → TextFile second → Rendered first tokens →
    Rendered second tokens →
    (parserRun platform sections memory first).vars.calls =
        (parserRun platform sections memory second).vars.calls ∧
      (parserRun platform sections memory first).returned =
        (parserRun platform sections memory second).returned

theorem exists_first_mark (before after : List Token) {token : Token}
    (marked : token.isQuotedMark = true) :
    ∃ earlier mark later, before ++ token :: after = earlier ++ mark :: later ∧
      mark.isQuotedMark = true ∧ (∀ other ∈ earlier, other.isQuotedMark = false) ∧
      earlier <+: before := by
  induction before with
  | nil => exact ⟨[], token, after, rfl, marked, by simp, List.prefix_rfl⟩
  | cons head before ih =>
      cases here : head.isQuotedMark with
      | true => exact ⟨[], head, before ++ token :: after, rfl, here, by simp, List.nil_prefix⟩
      | false =>
          obtain ⟨earlier, mark, later, split, markedToo, plain, front⟩ := ih
          refine ⟨head :: earlier, mark, later, by simp [split], markedToo, ?_, ?_⟩
          · simpa [here] using plain
          · exact (List.prefix_cons_inj head).mpr front

theorem completion_simple (place : Place) :
    ∀ text ∈ completion place, text ∈ [[120], [123], [125], [59]] := by
  intro text member
  simp only [completion, List.mem_append] at member
  rcases member with opening | closing
  · split_ifs at opening
    all_goals simp_all
    all_goals tauto
  · split_ifs at closing
    all_goals simp_all
    all_goals tauto

theorem spaced_free {texts : List Bytes} (simple : ∀ text ∈ texts, text ∈ [[120], [123], [125], [59]])
    {byte : UInt8} (free : byte ∉ [120, 123, 125, 59, 32]) : byte ∉ spaced texts := by
  intro member
  obtain ⟨text, inTexts, inText⟩ := List.mem_flatMap.mp member
  have known := simple text inTexts
  simp only [List.mem_cons, List.not_mem_nil, or_false] at known free
  simp only [List.mem_append, List.mem_singleton] at inText
  rcases known with rfl | rfl | rfl | rfl
  all_goals
    simp only [List.mem_singleton] at inText
    tauto

section

variable {platform : Platform} {sections : List (ParserSection Memory)}

theorem foldl_going_of_prefix {vars : ParserVars Memory} {first texts : List Bytes}
    (front : first <+: texts) (going : (texts.foldl (next platform sections) vars).stopped = false) :
    (first.foldl (next platform sections) vars).stopped = false := by
  obtain ⟨rest, rfl⟩ := front
  rw [List.foldl_append] at going
  cases stopped : (first.foldl (next platform sections) vars).stopped with
  | false => rfl
  | true =>
      rw [foldl_next_of_stopped stopped, stopped] at going
      cases going

/-- If the parser gets to a string that spells a mark, two layouts come to different results. -/
theorem not_invariant_of_going {memory : Memory} {before after : List Token} {token : Token}
    (wellFormed : ∀ other ∈ before ++ token :: after, other.WellFormed)
    (marked : token.isQuotedMark = true) (first : ∀ other ∈ before, other.isQuotedMark = false)
    (going : ((before.map (·.text)).foldl (next platform sections) (.start memory)).stopped = false) :
    ¬LayoutInvariant (before ++ token :: after) := by
  intro invariant
  have known : ∀ text ∈ before.map (·.text), text ∈ [120] :: before.map (·.text) :=
    fun text member => List.mem_cons_of_mem _ member
  have starts : PermissiveRun ([120] :: before.map (·.text)) (ParserVars.start ()) :=
    ⟨rfl, by simp [ParserVars.start], by simp [ParserVars.start], by simp [ParserVars.start],
      fun _ => rfl, fun _ => rfl⟩
  have together : Tracks ([120] :: before.map (·.text)) (ParserVars.start memory)
      (ParserVars.start ()) := ⟨starts, rfl⟩
  have follows := together.foldl known rfl going
  obtain ⟨final, comes⟩ := follows.completes platform (List.mem_cons_self ..)
  have simple := completion_simple ((before.map (·.text)).foldl
    (next platform (permissive ([120] :: before.map (·.text)))) (ParserVars.start ())).place
  generalize completion ((before.map (·.text)).foldl
    (next platform (permissive ([120] :: before.map (·.text)))) (ParserVars.start ())).place = more
    at comes simple
  obtain ⟨accepted, behind, acceptedText, acceptedRendered, acceptedReads⟩ :=
    exists_layout (spaced more ++ stuck) wellFormed marked first
      (by simpa [spaced_free simple] using (by decide : (42 : UInt8) ∉ stuck))
      (by simpa [spaced_free simple] using (by decide : (10 : UInt8) ∉ stuck))
      (by simpa [spaced_free simple] using (by decide : (0 : UInt8) ∉ stuck))
  obtain ⟨refused, behind', refusedText, refusedRendered, refusedReads⟩ :=
    exists_layout [64] wellFormed marked first (by decide) (by decide) (by decide)
  have same := (invariant Unit platform (permissive ([120] :: before.map (·.text))) () accepted refused
    acceptedText refusedText acceptedRendered refusedRendered).2
  have accepts : (parserRun platform (permissive ([120] :: before.map (·.text))) () accepted).returned =
      some 0 := by
    rw [parserRun_eq _ _ _ acceptedText.nulFree, acceptedText.complete.whole_eq, acceptedReads,
      List.append_assoc, readText_spaced rfl simple, readText_stuck]
    refine (finish_returns_zero _ _).mpr ⟨final, ?_⟩
    have comesAll : Comes platform (permissive ([120] :: before.map (·.text)))
        ((before ++ more.map (Token.mk .plainstr)).map (·.text)) (.start ()) final := by
      unfold Comes at comes ⊢
      simpa [List.foldl_append, Function.comp_def] using comes
    simp only [Reading.prepend, List.append_nil]
    rw [outcome_of_comes comesAll]
  rw [accepts, parserRun_eq _ _ _ refusedText.nulFree, refusedText.complete.whole_eq,
    refusedReads] at same
  obtain ⟨other, comesToo⟩ := (finish_returns_zero _ _).mp same.symm
  obtain ⟨rest, ending, -⟩ := outcome_fst_running comesToo
  have bad := readText_bad everyMark behind'
  simp only [Reading.prepend, List.cons_append, List.nil_append, bad] at ending
  cases ending

end

/-- The layout of a file makes no difference exactly when the parser, with whatever sections, has
stopped in front of every string that spells the mark of a comment.  For layouts of less than 2^30
bytes, with the NUL behind them, `parserRun` is also what comes of an `int` as the room for `fgets`. -/
theorem layoutInvariant_iff (tokens : List Token)
    (wellFormed : ∀ token ∈ tokens, token.WellFormed) :
    (LayoutInvariant tokens ↔
      ∀ (Memory : Type) (platform : Platform) (sections : List (ParserSection Memory))
        (memory : Memory), StopsBeforeMarks platform sections (.start memory) tokens) ∧
    ∀ (Memory : Type) (platform : Platform) (sections : List (ParserSection Memory))
      (memory : Memory) (file : Bytes), TextFile file → Rendered file tokens →
      file.length + 1 < 2 ^ 30 →
      ParserMachine.Ends platform sections memory file (parserRun platform sections memory file) := by
  refine ⟨?_, fun Memory platform sections memory file text _ short =>
    ParserMachine.ends_of_short memory text.nulFree short⟩
  constructor
  · intro invariant Memory platform sections memory before token after split marked
    subst split
    obtain ⟨earlier, mark, later, split, markedToo, plain, front⟩ :=
      exists_first_mark before after marked
    cases going : ((before.map (·.text)).foldl (next platform sections) (.start memory)).stopped with
    | true => rfl
    | false =>
        rw [split] at wellFormed invariant
        have goesOn := foldl_going_of_prefix (front.map (·.text)) going
        exact absurd invariant (not_invariant_of_going wellFormed markedToo plain goesOn)
  · intro stops Memory platform sections memory first second firstText secondText firstRendered
      secondRendered
    rw [parserRun_rendered firstText firstRendered (stops Memory platform sections memory),
      parserRun_rendered secondText secondRendered (stops Memory platform sections memory)]
    exact ⟨rfl, rfl⟩

def logTokens : List Token :=
  [⟨.plainstr, ascii "base"⟩, .symbol 123, ⟨.plainstr, ascii "log"⟩, .symbol 61,
    ⟨.cstr, ascii "a b"⟩, .symbol 59, .symbol 125]

theorem layoutInvariant_iff_log : LayoutInvariant logTokens := by
  refine (layoutInvariant_iff logTokens ?_).1.mpr ?_
  · have word : ∀ text : Bytes, text.head?.any isalpha = true →
        (∀ byte ∈ text, isWordByte byte = true) → 0 ∉ text → Token.WellFormed ⟨.plainstr, text⟩ :=
      fun text first inside nulFree => ⟨text, .word first inside ⟨10, [], rfl, rfl⟩, nulFree⟩
    have symbol : ∀ byte : UInt8, isPunctuation byte = true → byte ≠ 0 → (Token.symbol byte).WellFormed :=
      fun byte punctuation nulFree => ⟨[byte], .punctuation punctuation, by simpa using Ne.symm nulFree⟩
    have quoted : Token.WellFormed ⟨.cstr, ascii "a b"⟩ :=
      ⟨34 :: ascii "a b" ++ [34], .quoted (.plain (by decide) (by decide)
        (.plain (by decide) (by decide) (.plain (by decide) (by decide) .nil))), by decide⟩
    simp only [logTokens, List.mem_cons, List.not_mem_nil, or_false, forall_eq_or_imp, forall_eq]
    exact ⟨word _ (by decide) (List.all_eq_true.mp (by decide)) (by decide),
      symbol _ rfl (by decide),
      word _ (by decide) (List.all_eq_true.mp (by decide)) (by decide),
      symbol _ rfl (by decide), quoted,
      symbol _ rfl (by decide), symbol _ rfl (by decide)⟩
  · intro Memory platform sections memory before token after split marked
    have member : token ∈ logTokens := by simp [split]
    have plain : ∀ token ∈ logTokens, token.isQuotedMark = false := by decide
    rw [plain token member] at marked
    cases marked

/-- A string `"//"` hides the rest of its line. -/
theorem layout_hides_tokens :
    TextFile (ascii "\"//\" \x7d\n") ∧ TextFile (ascii "\"//\"\n\x7d\n") ∧
      Rendered (ascii "\"//\" \x7d\n") [⟨.cstr, ascii "//"⟩, .symbol 125] ∧
      Rendered (ascii "\"//\"\n\x7d\n") [⟨.cstr, ascii "//"⟩, .symbol 125] ∧
      (parserRun samplePlatform sampleSections none (ascii "\"//\" \x7d\n")).returned = some 0 ∧
      (parserRun samplePlatform sampleSections none (ascii "\"//\"\n\x7d\n")).returned = some (-1) := by
  have spelled : ∀ rest, Spelling ⟨.cstr, ascii "//"⟩ (ascii "\"//\"") rest := fun rest =>
    .quoted (.plain (by decide) (by decide) (.plain (by decide) (by decide) .nil))
  have ending : Rendered (ascii "\x7d\n") [.symbol 125] :=
    .cons (show Gap [] from .nil) (.punctuation rfl) (.nil (.space rfl .nil))
  refine ⟨⟨complete_of_getLast? (by decide +kernel), by decide +kernel⟩,
    ⟨complete_of_getLast? (by decide +kernel), by decide +kernel⟩, ?_, ?_, by decide +kernel,
    by decide +kernel⟩
  · exact .cons (show Gap [] from .nil) (spelled _)
      (ending.after_gap (show Gap [32] from .space rfl .nil))
  · exact .cons (show Gap [] from .nil) (spelled _)
      (ending.after_gap (show Gap [10] from .space rfl .nil))

end ProxySet
