import Mathlib.Data.List.Basic

/-!
How a POSIX shell cuts a script into simple commands and words: blanks, quotes,
escapes, comments and the operators that end a command.  A word keeps which of its
bytes stand for themselves, so that a word is known to be one literal argument.
-/

namespace Shell

inductive Piece where
  | lit (byte : UInt8)
  | param (name : List UInt8)
  /-- The start of another expansion, a pattern or a redirection. -/
  | other (byte : UInt8)
  deriving DecidableEq

abbrev Word := List Piece

structure Command where
  words : List Word
  ender : UInt8
  deriving DecidableEq

inductive Mode where
  | plain
  | escape
  | single
  | double
  | doubleEscape
  | doubleName (name : List UInt8)
  | comment
  deriving DecidableEq

structure Reader where
  commands : List Command
  words : List Word
  word : Option Word
  mode : Mode
  deriving DecidableEq

inductive Role where
  | blank
  | newline
  | ender
  | redirect
  | doubleQuote
  | singleQuote
  | backslash
  | hash
  | tilde
  | special
  | ordinary
  deriving DecidableEq

def role (byte : UInt8) : Role :=
  if byte = 32 ∨ byte = 9 then .blank
  else if byte = 10 then .newline
  else if byte ∈ [59, 38, 124, 40, 41] then .ender
  else if byte = 60 ∨ byte = 62 then .redirect
  else if byte = 34 then .doubleQuote
  else if byte = 39 then .singleQuote
  else if byte = 92 then .backslash
  else if byte = 35 then .hash
  else if byte = 126 then .tilde
  else if byte ∈ [0, 36, 96, 42, 63, 91] then .special
  else .ordinary

/-- No argument holds a NUL. -/
def Piece.quoted (byte : UInt8) : Piece :=
  if byte = 0 then .other 0 else .lit byte

def isNameByte (name : List UInt8) (byte : UInt8) : Bool :=
  (decide (65 ≤ byte) && decide (byte ≤ 90)) || (decide (97 ≤ byte) && decide (byte ≤ 122)) ||
    byte == 95 || (!name.isEmpty && decide (48 ≤ byte) && decide (byte ≤ 57))

namespace Reader

def start : Reader where
  commands := []
  words := []
  word := none
  mode := .plain

def endWord (reader : Reader) : Reader :=
  match reader.word with
  | none => reader
  | some word => { reader with words := reader.words ++ [word], word := none }

def endCommand (reader : Reader) (ender : UInt8) : Reader :=
  { reader with commands := reader.commands ++ [⟨reader.words, ender⟩], words := [] }

/-- A line without a word is no command. -/
def endLine (reader : Reader) : Reader :=
  if reader.words.isEmpty then reader else reader.endCommand 10

def push (reader : Reader) (piece : Piece) : Reader :=
  { reader with word := some (reader.word.getD [] ++ [piece]) }

def enter (reader : Reader) (mode : Mode) : Reader :=
  { reader with mode := mode }

/-- A quote starts a word even where nothing stands in it. -/
def quote (reader : Reader) (mode : Mode) : Reader :=
  { reader with word := some (reader.word.getD []), mode := mode }

def feedPlain (reader : Reader) (byte : UInt8) : Reader :=
  match role byte with
  | .blank => reader.endWord
  | .newline => reader.endWord.endLine
  | .ender => reader.endWord.endCommand byte
  | .redirect => reader.endWord.push (.other byte)
  | .doubleQuote => reader.quote .double
  | .singleQuote => reader.quote .single
  | .backslash => reader.enter .escape
  | .hash => if reader.word.isNone then reader.enter .comment else reader.push (.lit byte)
  | .tilde => reader.push (if reader.word.isNone then .other byte else .lit byte)
  | .special => reader.push (.other byte)
  | .ordinary => reader.push (.lit byte)

def feedDouble (reader : Reader) (byte : UInt8) : Reader :=
  if byte = 34 then reader.enter .plain
  else if byte = 92 then reader.enter .doubleEscape
  else if byte = 36 then reader.enter (.doubleName [])
  else if byte = 96 then (reader.push (.other 96)).enter .double
  else (reader.push (.quoted byte)).enter .double

/-- In double quotes a backslash escapes `$`, a backquote, `"`, itself and a newline only. -/
def feedDoubleEscape (reader : Reader) (byte : UInt8) : Reader :=
  if byte = 10 then reader.enter .double
  else if byte ∈ [36, 96, 34, 92] then (reader.push (.lit byte)).enter .double
  else ((reader.push (.lit 92)).push (.quoted byte)).enter .double

def endName (reader : Reader) (name : List UInt8) : Reader :=
  reader.push (if name.isEmpty then .other 36 else .param name)

def feedByte (reader : Reader) (byte : UInt8) : Reader :=
  match reader.mode with
  | .plain => reader.feedPlain byte
  | .escape =>
      if byte = 10 then reader.enter .plain else (reader.push (.quoted byte)).enter .plain
  | .single => if byte = 39 then reader.enter .plain else reader.push (.quoted byte)
  | .double => reader.feedDouble byte
  | .doubleEscape => reader.feedDoubleEscape byte
  | .doubleName name =>
      if isNameByte name byte then reader.enter (.doubleName (name ++ [byte]))
      else (reader.endName name).feedDouble byte
  | .comment => if byte = 10 then (reader.enter .plain).feedPlain 10 else reader

def feed (reader : Reader) (text : List UInt8) : Reader :=
  text.foldl feedByte reader

end Reader

/-- The simple commands of a script, unless it ends in the middle of a quotation. -/
def readCommands (text : List UInt8) : Option (List Command) :=
  let final := Reader.start.feed text
  match final.mode with
  | .plain => some final.endWord.endLine.commands
  | .comment => some final.endWord.endLine.commands
  | _ => none

def firstCommand (text : List UInt8) : Option Command :=
  (Reader.start.feed text).commands.head?

def expand (values : List UInt8 → List UInt8) : Word → Option (List UInt8)
  | [] => some []
  | .lit byte :: rest => (expand values rest).map (byte :: ·)
  | .param name :: rest => (expand values rest).map (values name ++ ·)
  | .other _ :: _ => none

def literal (text : List UInt8) : Word :=
  text.map .lit

def argument (word : Word) : Option (List UInt8) :=
  word.mapM fun piece => match piece with
    | .lit byte => some byte
    | _ => none

/-! ### Literal words -/

def startsWord (byte : UInt8) : Bool :=
  role byte == .ordinary

/-- `#` and `~` are special at the start of a word only. -/
def isLiteral (byte : UInt8) : Bool :=
  role byte == .ordinary || role byte == .hash || role byte == .tilde

def isLiteralWord : List UInt8 → Bool
  | [] => false
  | first :: rest => startsWord first && rest.all isLiteral

def joinFields (fields : List (List UInt8)) : List UInt8 :=
  [32].intercalate fields

def line (fields : List (List UInt8)) : List UInt8 :=
  joinFields fields ++ [10]

def isField (field : List UInt8) : Bool :=
  field.isEmpty || isLiteralWord field

/-- The words of a line; two blanks with nothing between them separate like one. -/
def fieldWords (fields : List (List UInt8)) : List Word :=
  (fields.filter fun field => !field.isEmpty).map literal

theorem fieldWords_cons (field : List UInt8) (fields : List (List UInt8)) :
    fieldWords (field :: fields) = fieldWords [field] ++ fieldWords fields := by
  simp only [fieldWords, ← List.map_append, ← List.filter_append, List.singleton_append]

theorem joinFields_append {first second : List (List UInt8)} (nonempty : second ≠ []) :
    joinFields (first ++ second) = first.flatMap (· ++ [32]) ++ joinFields second := by
  obtain ⟨next, more, rfl⟩ := List.exists_cons_of_ne_nil nonempty
  induction first with
  | nil => rfl
  | cons field first ih =>
      have apart : ∃ head tail, first ++ next :: more = head :: tail := by
        cases first <;> simp
      obtain ⟨head, tail, split⟩ := apart
      rw [List.flatMap_cons, List.append_assoc, ← ih, List.cons_append, split]
      simp [joinFields, List.intercalate]

theorem isLiteral_of_startsWord {byte : UInt8} (starts : startsWord byte = true) :
    isLiteral byte = true := by
  simp_all [startsWord, isLiteral]

theorem isLiteralWord_of_all {text : List UInt8} (nonempty : text ≠ [])
    (all : ∀ byte ∈ text, startsWord byte = true) : isLiteralWord text = true := by
  obtain ⟨first, rest, rfl⟩ := List.exists_cons_of_ne_nil nonempty
  simp only [List.mem_cons, forall_eq_or_imp] at all
  simp only [isLiteralWord, Bool.and_eq_true, List.all_eq_true]
  exact ⟨all.1, fun byte member => isLiteral_of_startsWord (all.2 byte member)⟩

theorem isLiteralWord_append {first second : List UInt8} (word : isLiteralWord first = true)
    (more : ∀ byte ∈ second, isLiteral byte = true) : isLiteralWord (first ++ second) = true := by
  cases first with
  | nil => simp [isLiteralWord] at word
  | cons byte rest =>
      simp only [isLiteralWord, Bool.and_eq_true, List.all_eq_true, List.cons_append,
        List.mem_append] at word ⊢
      refine ⟨word.1, ?_⟩
      rintro other (member | member)
      · exact word.2 other member
      · exact more other member

@[simp] theorem argument_literal (text : List UInt8) : argument (literal text) = some text := by
  induction text with
  | nil => rfl
  | cons byte rest ih =>
      simp only [argument, literal, List.map_cons, List.mapM_cons] at ih ⊢
      simp [ih]

theorem arguments_literal (texts : List (List UInt8)) :
    (texts.map literal).mapM argument = some texts := by
  induction texts with
  | nil => rfl
  | cons text texts ih => simp [List.mapM_cons, ih]

theorem expand_append (values : List UInt8 → List UInt8) (first second : Word) :
    expand values (first ++ second) =
      (expand values first).bind fun front => (expand values second).map (front ++ ·) := by
  induction first with
  | nil => simp [expand]
  | cons piece rest ih =>
      cases piece with
      | lit byte =>
          simp only [List.cons_append, expand, ih]
          cases expand values rest <;> cases expand values second <;> simp
      | param name =>
          simp only [List.cons_append, expand, ih]
          cases expand values rest <;> cases expand values second <;> simp
      | other byte => simp [expand]

@[simp] theorem expand_literal (values : List UInt8 → List UInt8) (text : List UInt8) :
    expand values (literal text) = some text := by
  induction text with
  | nil => rfl
  | cons byte rest ih =>
      simp only [literal, List.map_cons, expand] at ih ⊢
      simp [ih]

namespace Reader

@[simp] theorem feed_nil (reader : Reader) : reader.feed [] = reader := rfl

@[simp] theorem feed_cons (reader : Reader) (byte : UInt8) (text : List UInt8) :
    reader.feed (byte :: text) = (reader.feedByte byte).feed text := rfl

theorem feed_append (reader : Reader) (first second : List UInt8) :
    reader.feed (first ++ second) = (reader.feed first).feed second :=
  List.foldl_append

def between (commands : List Command) (words : List Word) : Reader where
  commands := commands
  words := words
  word := none
  mode := .plain

def inside (commands : List Command) (words : List Word) (word : Word) : Reader where
  commands := commands
  words := words
  word := some word
  mode := .plain

def inDouble (commands : List Command) (words : List Word) (word : Word) : Reader where
  commands := commands
  words := words
  word := some word
  mode := .double

variable (commands : List Command) (words : List Word)

theorem inside_literal (word : Word) {byte : UInt8} (goes : isLiteral byte = true) :
    (inside commands words word).feedByte byte = inside commands words (word ++ [.lit byte]) := by
  simp only [isLiteral, Bool.or_eq_true, beq_iff_eq] at goes
  rcases goes with (ordinary | hash) | tilde
  · simp [feedByte, inside, feedPlain, push, ordinary]
  · simp [feedByte, inside, feedPlain, push, hash]
  · simp [feedByte, inside, feedPlain, push, tilde]

theorem feed_inside (word : Word) {text : List UInt8} (all : ∀ byte ∈ text, isLiteral byte = true) :
    (inside commands words word).feed text = inside commands words (word ++ literal text) := by
  induction text generalizing word with
  | nil => simp [literal]
  | cons byte rest ih =>
      simp only [List.mem_cons, forall_eq_or_imp] at all
      rw [feed_cons, inside_literal _ _ _ all.1, ih _ all.2]
      simp [literal]

theorem feed_word {text : List UInt8} (word : isLiteralWord text = true) :
    (between commands words).feed text = inside commands words (literal text) := by
  cases text with
  | nil => simp [isLiteralWord] at word
  | cons byte rest =>
      simp only [isLiteralWord, Bool.and_eq_true, List.all_eq_true, startsWord, beq_iff_eq] at word
      have first : (between commands words).feedByte byte = inside commands words [.lit byte] := by
        simp [feedByte, between, feedPlain, push, inside, word.1]
      rw [feed_cons, first, feed_inside _ _ _ word.2]
      rfl

@[simp] theorem inside_blank (word : Word) :
    (inside commands words word).feedByte 32 = between commands (words ++ [word]) := rfl

@[simp] theorem between_blank : (between commands words).feedByte 32 = between commands words := rfl

@[simp] theorem inside_newline (word : Word) :
    (inside commands words word).feedByte 10 = between (commands ++ [⟨words ++ [word], 10⟩]) [] := by
  simp [feedByte, inside, feedPlain, role, endWord, endLine, endCommand, between]

theorem between_newline (nonempty : words ≠ []) :
    (between commands words).feedByte 10 = between (commands ++ [⟨words, 10⟩]) [] := by
  simp [feedByte, feedPlain, role, endWord, endLine, endCommand, between, nonempty]

@[simp] theorem between_quote :
    (between commands words).feedByte 34 = inDouble commands words [] := rfl

@[simp] theorem inDouble_quote (word : Word) :
    (inDouble commands words word).feedByte 34 = inside commands words word := rfl

def isQuotedByte (byte : UInt8) : Bool :=
  byte != 0 && byte != 34 && byte != 36 && byte != 92 && byte != 96

theorem feed_inDouble (word : Word) {text : List UInt8}
    (all : ∀ byte ∈ text, isQuotedByte byte = true) :
    (inDouble commands words word).feed text = inDouble commands words (word ++ literal text) := by
  induction text generalizing word with
  | nil => simp [literal]
  | cons byte rest ih =>
      simp only [List.mem_cons, forall_eq_or_imp] at all
      have known := all.1
      simp only [isQuotedByte, Bool.and_eq_true, bne_iff_ne] at known
      have one : (inDouble commands words word).feedByte byte =
          inDouble commands words (word ++ [.lit byte]) := by
        simp [feedByte, inDouble, feedDouble, push, enter, Piece.quoted, known]
      rw [feed_cons, one, ih _ all.2]
      simp [literal]

theorem feed_doubleName (reader : Reader) (name : List UInt8) {text : List UInt8}
    (all : ∀ byte ∈ text, isNameByte [] byte = true) :
    (reader.enter (.doubleName name)).feed text = reader.enter (.doubleName (name ++ text)) := by
  induction text generalizing name with
  | nil => simp
  | cons byte rest ih =>
      simp only [List.mem_cons, forall_eq_or_imp] at all
      have goes : isNameByte name byte = true := by
        have known := all.1
        simp only [isNameByte, List.isEmpty_nil, Bool.not_true, Bool.false_and,
          Bool.or_false] at known
        simp only [isNameByte, known, Bool.true_or]
      have one : (reader.enter (.doubleName name)).feedByte byte =
          reader.enter (.doubleName (name ++ [byte])) := by
        simp [feedByte, enter, goes]
      rw [feed_cons, one, ih _ all.2]
      simp

theorem feed_param (word : Word) {name : List UInt8} (nonempty : name ≠ [])
    (all : ∀ byte ∈ name, isNameByte [] byte = true) {byte : UInt8}
    (ends : isNameByte name byte = false) :
    (inDouble commands words word).feed (36 :: (name ++ [byte])) =
      (inDouble commands words (word ++ [.param name])).feedByte byte := by
  have opened : (inDouble commands words word).feedByte 36 =
      (inDouble commands words word).enter (.doubleName []) := rfl
  have filled : name.isEmpty = false := by simpa using nonempty
  rw [feed_cons, opened, feed_append, feed_doubleName _ _ all]
  simp [feedByte, enter, ends, endName, filled, push, inDouble, feedDouble]

theorem feed_field {field : List UInt8} (known : isField field = true) :
    (between commands words).feed (field ++ [32]) =
      between commands (words ++ fieldWords [field]) := by
  simp only [isField, Bool.or_eq_true, List.isEmpty_iff] at known
  rcases known with rfl | word
  · simp [fieldWords]
  · have nonempty : field.isEmpty = false := by
      cases field with
      | nil => simp [isLiteralWord] at word
      | cons byte rest => rfl
    rw [feed_append, feed_word commands words word]
    simp [fieldWords, nonempty]

theorem feed_blanks {fields : List (List UInt8)} (known : ∀ field ∈ fields, isField field = true) :
    (between commands words).feed (fields.flatMap (· ++ [32])) =
      between commands (words ++ fieldWords fields) := by
  induction fields generalizing words with
  | nil => simp [fieldWords]
  | cons field rest ih =>
      simp only [List.mem_cons, forall_eq_or_imp] at known
      rw [List.flatMap_cons, feed_append, feed_field commands words known.1, ih _ known.2,
        fieldWords_cons field rest, List.append_assoc]

theorem feed_last {field : List UInt8} (known : isField field = true)
    (nonempty : words ++ fieldWords [field] ≠ []) :
    (between commands words).feed (field ++ [10]) =
      between (commands ++ [⟨words ++ fieldWords [field], 10⟩]) [] := by
  simp only [isField, Bool.or_eq_true, List.isEmpty_iff] at known
  rcases known with rfl | word
  · have some : words ≠ [] := by simpa [fieldWords] using nonempty
    simp [fieldWords, between_newline commands words some]
  · have filled : field.isEmpty = false := by
      cases field with
      | nil => simp [isLiteralWord] at word
      | cons byte rest => rfl
    rw [feed_append, feed_word commands words word]
    simp [fieldWords, filled]

theorem feed_fields {fields : List (List UInt8)} (known : ∀ field ∈ fields, isField field = true)
    (nonempty : words ++ fieldWords fields ≠ []) :
    (between commands words).feed (line fields) =
      between (commands ++ [⟨words ++ fieldWords fields, 10⟩]) [] := by
  induction fields generalizing words with
  | nil =>
      have some : words ≠ [] := by simpa [fieldWords] using nonempty
      simp [line, joinFields, fieldWords, between_newline commands words some]
  | cons field rest ih =>
      simp only [List.mem_cons, forall_eq_or_imp] at known
      have split := fieldWords_cons field rest
      cases rest with
      | nil =>
          have last := feed_last commands words known.1 nonempty
          simpa [line, joinFields] using last
      | cons next rest =>
          have shape : line (field :: next :: rest) = (field ++ [32]) ++ line (next :: rest) := by
            simp [line, joinFields, List.intercalate]
          have kept : (words ++ fieldWords [field]) ++ fieldWords (next :: rest) ≠ [] := by
            rwa [List.append_assoc, ← split]
          rw [shape, feed_append, feed_field commands words known.1, ih _ known.2 kept, split,
            List.append_assoc]

end Reader

/-! ### The first command -/

namespace Reader

theorem endWord_commands (reader : Reader) : reader.endWord.commands = reader.commands := by
  unfold endWord
  split <;> rfl

theorem endLine_commands (reader : Reader) :
    ∃ later, reader.endLine.commands = reader.commands ++ later := by
  unfold endLine
  split
  · exact ⟨[], (List.append_nil _).symm⟩
  · exact ⟨_, rfl⟩

theorem feedPlain_commands (reader : Reader) (byte : UInt8) :
    ∃ later, (reader.feedPlain byte).commands = reader.commands ++ later := by
  have kept {next : Reader} (same : next.commands = reader.commands) :
      ∃ later, next.commands = reader.commands ++ later := ⟨[], by rw [same, List.append_nil]⟩
  unfold feedPlain
  split
  · exact kept reader.endWord_commands
  · rw [← reader.endWord_commands]
    exact endLine_commands _
  · exact ⟨_, by rw [endCommand, reader.endWord_commands]⟩
  · exact kept reader.endWord_commands
  · exact kept rfl
  · exact kept rfl
  · exact kept rfl
  · split <;> exact kept rfl
  · exact kept rfl
  · exact kept rfl
  · exact kept rfl

theorem feedDouble_commands (reader : Reader) (byte : UInt8) :
    (reader.feedDouble byte).commands = reader.commands := by
  unfold feedDouble
  split_ifs <;> rfl

theorem feedDoubleEscape_commands (reader : Reader) (byte : UInt8) :
    (reader.feedDoubleEscape byte).commands = reader.commands := by
  unfold feedDoubleEscape
  split_ifs <;> rfl

theorem feedByte_commands (reader : Reader) (byte : UInt8) :
    ∃ later, (reader.feedByte byte).commands = reader.commands ++ later := by
  have kept {next : Reader} (same : next.commands = reader.commands) :
      ∃ later, next.commands = reader.commands ++ later := ⟨[], by rw [same, List.append_nil]⟩
  unfold feedByte
  split
  · exact reader.feedPlain_commands byte
  · split <;> exact kept rfl
  · split <;> exact kept rfl
  · exact kept (reader.feedDouble_commands byte)
  · exact kept (reader.feedDoubleEscape_commands byte)
  · split
    · exact kept rfl
    · exact kept (feedDouble_commands _ byte)
  · split
    · exact feedPlain_commands (reader.enter .plain) 10
    · exact kept rfl

/-- What a reader has read stays read. -/
theorem feed_commands (reader : Reader) (text : List UInt8) :
    ∃ later, (reader.feed text).commands = reader.commands ++ later := by
  induction text generalizing reader with
  | nil => exact ⟨[], (List.append_nil _).symm⟩
  | cons byte rest ih =>
      obtain ⟨one, here⟩ := reader.feedByte_commands byte
      obtain ⟨more, later⟩ := ih (reader.feedByte byte)
      exact ⟨one ++ more, by rw [feed_cons, later, here, List.append_assoc]⟩

end Reader

theorem firstCommand_append {front : List UInt8} {command : Command} (behind : List UInt8)
    (first : firstCommand front = some command) :
    firstCommand (front ++ behind) = some command := by
  obtain ⟨later, split⟩ := (Reader.start.feed front).feed_commands behind
  obtain ⟨more, commands⟩ := List.head?_eq_some_iff.mp first
  rw [firstCommand, Reader.feed_append, split, commands]
  rfl

/-- A script of lines with nothing but literal words. -/
theorem readCommands_lines {lines : List (List (List UInt8))}
    (known : ∀ fields ∈ lines, ∀ field ∈ fields, isField field = true)
    (nonempty : ∀ fields ∈ lines, fieldWords fields ≠ []) :
    readCommands (lines.flatMap line) = some (lines.map fun fields => ⟨fieldWords fields, 10⟩) := by
  have run : ∀ commands : List Command,
      (Reader.between commands []).feed (lines.flatMap line) =
        Reader.between (commands ++ lines.map fun fields => ⟨fieldWords fields, 10⟩) [] := by
    induction lines with
    | nil => simp
    | cons fields lines ih =>
        intro commands
        simp only [List.mem_cons, forall_eq_or_imp] at known nonempty
        rw [List.flatMap_cons, Reader.feed_append,
          Reader.feed_fields commands [] known.1 (by simpa using nonempty.1),
          ih known.2 nonempty.2]
        simp
  have final := run []
  simp only [List.nil_append] at final
  have begin : Reader.start = Reader.between [] [] := rfl
  rw [readCommands, begin, final]
  simp [Reader.between, Reader.endWord, Reader.endLine]

theorem fieldWords_literal {fields : List (List UInt8)}
    (known : ∀ field ∈ fields, isLiteralWord field = true) :
    fieldWords fields = fields.map literal := by
  have kept : (fields.filter fun field => !field.isEmpty) = fields := by
    refine List.filter_eq_self.mpr fun field member => ?_
    have word := known field member
    cases field with
    | nil => simp [isLiteralWord] at word
    | cons byte rest => rfl
  rw [fieldWords, kept]

theorem isField_of_literal {text : List UInt8} (word : isLiteralWord text = true) :
    isField text = true := by
  rw [isField, word, Bool.or_true]

theorem readCommands_joinFields {fields : List (List UInt8)} (nonempty : fields ≠ [])
    (known : ∀ field ∈ fields, isLiteralWord field = true) :
    readCommands (joinFields fields) = some [⟨fields.map literal, 10⟩] := by
  obtain ⟨front, last, rfl⟩ : ∃ front last, fields = front ++ [last] :=
    ⟨_, _, (List.dropLast_append_getLast nonempty).symm⟩
  have before : ∀ field ∈ front, isLiteralWord field = true :=
    fun field member => known field (by simp [member])
  have split : joinFields (front ++ [last]) = front.flatMap (· ++ [32]) ++ last := by
    rw [joinFields_append (List.cons_ne_nil last [])]
    simp [joinFields]
  have begin : Reader.start = Reader.between [] [] := rfl
  have final : Reader.start.feed (joinFields (front ++ [last])) =
      Reader.inside [] (front.map literal) (literal last) := by
    rw [split, begin, Reader.feed_append,
      Reader.feed_blanks _ _ fun field member => isField_of_literal (before field member),
      fieldWords_literal before, Reader.feed_word _ _ (known last (by simp))]
    rfl
  rw [readCommands, final]
  simp [Reader.inside, Reader.endWord, Reader.endLine, Reader.endCommand]

end Shell
