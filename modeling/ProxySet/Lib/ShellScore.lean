import Mathlib.Algebra.GroupWithZero.Nat
import Mathlib.Algebra.Order.BigOperators.Group.List
import Mathlib.Algebra.Order.Group.Nat
import ProxySet.Lib.ShellWords

/-!
What the bytes of a script are worth.  A byte adds at most one literal byte or ends
at most one word; a text in which every byte does so has no quotes, escapes, comments
or expansions, so a script that is read as what it spells has nothing but literal words.
-/

namespace Shell

def isBoundary (byte : UInt8) : Bool :=
  role byte == .blank || role byte == .newline || role byte == .ender || role byte == .redirect

def isLit : Piece → Bool
  | .lit _ => true
  | _ => false

def literals (word : Word) : Nat :=
  word.countP isLit

def wordsScore (words : List Word) : Nat :=
  (words.map fun word => literals word + 1).sum

def commandsScore (commands : List Command) : Nat :=
  (commands.map fun command => wordsScore command.words).sum

/-- A backslash in double quotes that may turn out to be literal. -/
def Mode.credit : Mode → Nat
  | .doubleEscape => 1
  | _ => 0

@[simp] theorem literals_append (first second : Word) :
    literals (first ++ second) = literals first + literals second :=
  List.countP_append

@[simp] theorem literals_literal (text : List UInt8) : literals (literal text) = text.length := by
  induction text with
  | nil => rfl
  | cons byte rest ih =>
      simp only [literals, literal, List.map_cons] at ih ⊢
      rw [List.countP_cons_of_pos rfl, ih, List.length_cons]

@[simp] theorem wordsScore_append (first second : List Word) :
    wordsScore (first ++ second) = wordsScore first + wordsScore second := by
  simp [wordsScore]

@[simp] theorem wordsScore_singleton (word : Word) : wordsScore [word] = literals word + 1 := by
  simp [wordsScore]

@[simp] theorem wordsScore_nil : wordsScore [] = 0 := rfl

@[simp] theorem commandsScore_append (first second : List Command) :
    commandsScore (first ++ second) = commandsScore first + commandsScore second := by
  simp [commandsScore]

@[simp] theorem commandsScore_singleton (command : Command) :
    commandsScore [command] = wordsScore command.words := by
  simp [commandsScore]

theorem literals_singleton_le (piece : Piece) : literals [piece] ≤ 1 :=
  List.countP_le_length

namespace Reader

def score (reader : Reader) : Nat :=
  commandsScore reader.commands + wordsScore reader.words + (reader.word.map literals).getD 0 +
    reader.mode.credit

def wordCount (reader : Reader) : Nat :=
  (reader.commands.map fun command => command.words.length).sum + reader.words.length

theorem endWord_score_le (reader : Reader) : reader.endWord.score ≤ reader.score + 1 := by
  unfold endWord score
  split
  · omega
  · rename_i word here
    simp only [here, wordsScore_append, wordsScore_singleton, Option.map_none, Option.getD_none,
      Option.map_some, Option.getD_some]
    omega

@[simp] theorem endCommand_score (reader : Reader) (ender : UInt8) :
    (reader.endCommand ender).score = reader.score := by
  simp only [endCommand, score, commandsScore_append, commandsScore_singleton, wordsScore_nil]
  omega

@[simp] theorem endLine_score (reader : Reader) : reader.endLine.score = reader.score := by
  unfold endLine
  split
  · rfl
  · exact endCommand_score reader 10

@[simp] theorem push_score (reader : Reader) (piece : Piece) :
    (reader.push piece).score = reader.score + literals [piece] := by
  cases here : reader.word with
  | none =>
      simp only [push, score, here, Option.getD_none, List.nil_append, Option.map_some,
        Option.getD_some, Option.map_none]
      omega
  | some word =>
      simp only [push, score, here, Option.getD_some, Option.map_some, literals_append]
      omega

theorem enter_score (reader : Reader) (mode : Mode) :
    (reader.enter mode).score + reader.mode.credit = reader.score + mode.credit := by
  simp only [enter, score]
  omega

theorem enter_score_le (reader : Reader) (mode : Mode) :
    (reader.enter mode).score ≤ reader.score + mode.credit := by
  have entered := reader.enter_score mode
  omega

theorem quote_score_le (reader : Reader) (mode : Mode) :
    (reader.quote mode).score ≤ reader.score + mode.credit := by
  cases here : reader.word with
  | none =>
      simp only [quote, score, here, Option.getD_none, Option.map_some, Option.map_none,
        Option.getD_some, literals, List.countP_nil]
      omega
  | some word =>
      simp only [quote, score, here, Option.getD_some, Option.map_some]
      omega

@[simp] theorem push_mode (reader : Reader) (piece : Piece) : (reader.push piece).mode = reader.mode :=
  rfl

@[simp] theorem endWord_mode (reader : Reader) : reader.endWord.mode = reader.mode := by
  unfold endWord
  split <;> rfl

@[simp] theorem endCommand_mode (reader : Reader) (ender : UInt8) :
    (reader.endCommand ender).mode = reader.mode := rfl

@[simp] theorem endLine_mode (reader : Reader) : reader.endLine.mode = reader.mode := by
  unfold endLine
  split <;> rfl

theorem feedPlain_score_le (reader : Reader) (byte : UInt8) :
    (reader.feedPlain byte).score ≤ reader.score + 1 := by
  have ended := reader.endWord_score_le
  have other : ∀ special, literals [Piece.other special] = 0 := fun _ => rfl
  have pushed (piece : Piece) : (reader.push piece).score ≤ reader.score + 1 := by
    have single := literals_singleton_le piece
    rw [push_score]
    omega
  unfold feedPlain
  split
  · exact ended
  · simpa using ended
  · simpa using ended
  · simpa [other] using ended
  · exact Nat.le_succ_of_le (reader.quote_score_le .double)
  · exact Nat.le_succ_of_le (reader.quote_score_le .single)
  · exact Nat.le_succ_of_le (reader.enter_score_le .escape)
  · split
    · exact Nat.le_succ_of_le (reader.enter_score_le .comment)
    · exact pushed _
  · exact pushed _
  · exact pushed _
  · exact pushed _

theorem feedDouble_score_le (reader : Reader) (byte : UInt8) :
    (reader.feedDouble byte).score ≤ reader.score + 1 := by
  have pushed (piece : Piece) :
      ((reader.push piece).enter .double).score ≤ reader.score + 1 := by
    have entered := (reader.push piece).enter_score_le .double
    have single := literals_singleton_le piece
    simp only [push_score, Mode.credit] at entered
    omega
  unfold feedDouble
  split
  · exact Nat.le_succ_of_le (reader.enter_score_le .plain)
  · split
    · exact reader.enter_score_le .doubleEscape
    · split
      · exact Nat.le_succ_of_le (reader.enter_score_le (.doubleName []))
      · split
        · exact pushed _
        · exact pushed _

theorem feedDoubleEscape_score_le (reader : Reader) (byte : UInt8)
    (escaping : reader.mode = .doubleEscape) :
    (reader.feedDoubleEscape byte).score ≤ reader.score + 1 := by
  have pushed (first second : Piece) :
      (((reader.push first).push second).enter .double).score ≤ reader.score + 1 := by
    have entered := ((reader.push first).push second).enter_score .double
    have single := literals_singleton_le first
    have another := literals_singleton_le second
    simp only [push_mode, push_score, escaping, Mode.credit] at entered
    omega
  unfold feedDoubleEscape
  split
  · exact Nat.le_succ_of_le (reader.enter_score_le .double)
  · split
    · have entered := (reader.push (.lit byte)).enter_score_le .double
      have single := literals_singleton_le (.lit byte)
      simp only [push_score, Mode.credit] at entered
      omega
    · exact pushed _ _

theorem feedByte_score_le (reader : Reader) (byte : UInt8) :
    (reader.feedByte byte).score ≤ reader.score + 1 := by
  have pushed (piece : Piece) : (reader.push piece).score ≤ reader.score + 1 := by
    have single := literals_singleton_le piece
    rw [push_score]
    omega
  unfold feedByte
  split
  · exact feedPlain_score_le reader byte
  · split
    · exact Nat.le_succ_of_le (reader.enter_score_le .plain)
    · exact ((reader.push (.quoted byte)).enter_score_le .plain).trans (pushed _)
  · split
    · exact Nat.le_succ_of_le (reader.enter_score_le .plain)
    · exact pushed _
  · exact feedDouble_score_le reader byte
  · rename_i escaping
    exact feedDoubleEscape_score_le reader byte escaping
  · rename_i name named
    split
    · exact Nat.le_succ_of_le (reader.enter_score_le _)
    · have nothing : (reader.endName name).score = reader.score := by
        unfold endName
        split <;> simp [literals, isLit]
      rw [← nothing]
      exact feedDouble_score_le (reader.endName name) byte
  · split
    · exact (feedPlain_score_le _ 10).trans
        (Nat.add_le_add_right (reader.enter_score_le .plain) 1)
    · exact Nat.le_succ _

theorem feed_score_le (reader : Reader) (text : List UInt8) :
    (reader.feed text).score ≤ reader.score + text.length := by
  induction text generalizing reader with
  | nil => simp
  | cons byte rest ih =>
      have step := reader.feedByte_score_le byte
      have later := ih (reader.feedByte byte)
      rw [feed_cons, List.length_cons]
      omega

/-- The reader takes the byte for itself or as the end of a word. -/
inductive Takes (reader : Reader) (byte : UInt8) : Prop
  | literal : isLiteral byte = true → isBoundary byte = false →
      (reader.word = none → startsWord byte = true) →
      reader.feedByte byte = reader.push (.lit byte) → Takes reader byte
  | boundary : isBoundary byte = true → (reader.feedByte byte).mode = .plain →
      (reader.feedByte byte).wordCount = reader.wordCount + 1 → Takes reader byte

theorem endCommand_wordCount (reader : Reader) (ender : UInt8) :
    (reader.endCommand ender).wordCount = reader.wordCount := by
  simp [endCommand, wordCount]

theorem endLine_wordCount (reader : Reader) : reader.endLine.wordCount = reader.wordCount := by
  unfold endLine
  split
  · rfl
  · exact endCommand_wordCount reader 10

theorem push_wordCount (reader : Reader) (piece : Piece) :
    (reader.push piece).wordCount = reader.wordCount := rfl

theorem endWord_wordCount {reader : Reader} (gains : reader.endWord.score = reader.score + 1) :
    reader.endWord.wordCount = reader.wordCount + 1 := by
  cases here : reader.word with
  | none =>
      simp only [endWord, here] at gains
      omega
  | some word =>
      simp only [endWord, here, wordCount, List.length_append, List.length_singleton]
      omega

theorem takes_of_gains {reader : Reader} {byte : UInt8} (plain : reader.mode = .plain)
    (gains : (reader.feedByte byte).score = reader.score + 1) : reader.Takes byte := by
  have fed : reader.feedByte byte = reader.feedPlain byte := by rw [feedByte, plain]
  have other : ∀ special, literals [Piece.other special] = 0 := fun _ => rfl
  rw [fed, feedPlain] at gains
  cases kind : role byte <;> simp only [kind] at gains
  case blank =>
    refine .boundary (by simp [isBoundary, kind]) ?_ ?_
    · simp [fed, feedPlain, kind, plain]
    · simpa [fed, feedPlain, kind] using endWord_wordCount gains
  case newline =>
    refine .boundary (by simp [isBoundary, kind]) ?_ ?_
    · simp [fed, feedPlain, kind, plain]
    · rw [endLine_score] at gains
      simpa [fed, feedPlain, kind, endLine_wordCount] using endWord_wordCount gains
  case ender =>
    refine .boundary (by simp [isBoundary, kind]) ?_ ?_
    · simp [fed, feedPlain, kind, plain]
    · rw [endCommand_score] at gains
      simpa [fed, feedPlain, kind, endCommand_wordCount] using endWord_wordCount gains
  case redirect =>
    refine .boundary (by simp [isBoundary, kind]) ?_ ?_
    · simp [fed, feedPlain, kind, plain]
    · rw [push_score, other] at gains
      simpa [fed, feedPlain, kind, push_wordCount] using endWord_wordCount gains
  case doubleQuote =>
    have bound := reader.quote_score_le .double
    simp only [Mode.credit] at bound
    omega
  case singleQuote =>
    have bound := reader.quote_score_le .single
    simp only [Mode.credit] at bound
    omega
  case backslash =>
    have bound := reader.enter_score_le .escape
    simp only [Mode.credit] at bound
    omega
  case hash =>
    cases here : reader.word with
    | none =>
        have bound := reader.enter_score_le .comment
        simp only [here, Option.isNone_none, if_true, Mode.credit] at gains bound
        omega
    | some word =>
        exact .literal (by simp [isLiteral, kind]) (by simp [isBoundary, kind]) (by simp [here])
          (by simp [fed, feedPlain, kind, here])
  case tilde =>
    cases here : reader.word with
    | none =>
        simp only [here, Option.isNone_none, if_true, push_score, other] at gains
        omega
    | some word =>
        exact .literal (by simp [isLiteral, kind]) (by simp [isBoundary, kind]) (by simp [here])
          (by simp [fed, feedPlain, kind, here])
  case special =>
    rw [push_score, other] at gains
    omega
  case ordinary =>
    exact .literal (by simp [isLiteral, kind]) (by simp [isBoundary, kind])
      (fun _ => by simp [startsWord, kind]) (by simp [fed, feedPlain, kind])

/-- Every byte of the text is worth what it can be worth. -/
def Tight (reader : Reader) (text : List UInt8) : Prop :=
  (reader.feed text).score = reader.score + text.length

theorem Tight.split {reader : Reader} {first second : List UInt8}
    (tight : reader.Tight (first ++ second)) :
    reader.Tight first ∧ (reader.feed first).Tight second := by
  have early := reader.feed_score_le first
  have late := (reader.feed first).feed_score_le second
  simp only [Tight, feed_append, List.length_append] at tight ⊢
  omega

theorem Tight.step {reader : Reader} {byte : UInt8} {text : List UInt8}
    (tight : reader.Tight (byte :: text)) (plain : reader.mode = .plain) :
    reader.Takes byte ∧ (reader.feedByte byte).Tight text := by
  rw [← List.singleton_append] at tight
  obtain ⟨head, tail⟩ := tight.split
  exact ⟨takes_of_gains plain head, tail⟩

theorem Takes.mode {reader : Reader} {byte : UInt8} (takes : reader.Takes byte)
    (plain : reader.mode = .plain) : (reader.feedByte byte).mode = .plain := by
  cases takes with
  | literal _ _ _ same => rw [same, push_mode, plain]
  | boundary _ stays _ => exact stays

theorem Tight.mode {reader : Reader} {text : List UInt8} (tight : reader.Tight text)
    (plain : reader.mode = .plain) : (reader.feed text).mode = .plain := by
  induction text generalizing reader with
  | nil => exact plain
  | cons byte rest ih =>
      obtain ⟨takes, later⟩ := tight.step plain
      exact ih later (takes.mode plain)

theorem Tight.wordCount {reader : Reader} {text : List UInt8} (tight : reader.Tight text)
    (plain : reader.mode = .plain) :
    (reader.feed text).wordCount = reader.wordCount + text.countP isBoundary := by
  induction text generalizing reader with
  | nil => rfl
  | cons byte rest ih =>
      obtain ⟨takes, later⟩ := tight.step plain
      rw [feed_cons, ih later (takes.mode plain), List.countP_cons]
      cases takes with
      | literal _ inner _ same => simp [same, push_wordCount, inner]
      | boundary ends _ counted =>
          rw [counted, ends]
          simp only [if_true]
          omega

theorem Tight.literal {reader : Reader} {text : List UInt8} (tight : reader.Tight text)
    (plain : reader.mode = .plain) (inner : text.countP isBoundary = 0) :
    (∀ byte ∈ text, isLiteral byte = true) ∧
      (reader.word = none → ∀ byte ∈ text.head?, startsWord byte = true) := by
  induction text generalizing reader with
  | nil => simp
  | cons byte rest ih =>
      obtain ⟨takes, later⟩ := tight.step plain
      rw [List.countP_cons] at inner
      cases takes with
      | literal goes _ starts same =>
          have rest := ih later (by rw [same, push_mode, plain]) (by omega)
          refine ⟨?_, fun outside other first => ?_⟩
          · simpa [goes] using rest.1
          · obtain rfl : byte = other := by simpa using first
            exact starts outside
      | boundary ends _ _ => simp [ends] at inner

end Reader

theorem readCommands_eq_some {text : List UInt8} {commands : List Command}
    (reads : readCommands text = some commands) :
    (Reader.start.feed text).endWord.endLine.commands = commands ∧
      ((Reader.start.feed text).mode = .plain ∨ (Reader.start.feed text).mode = .comment) := by
  unfold readCommands at reads
  cases ends : (Reader.start.feed text).mode <;> simp_all

namespace Reader

theorem endWord_endLine_commands_le (reader : Reader) :
    commandsScore reader.endWord.endLine.commands ≤ reader.score + 1 := by
  have ended := reader.endWord_score_le
  rw [← endLine_score reader.endWord] at ended
  have part : commandsScore reader.endWord.endLine.commands ≤ reader.endWord.endLine.score := by
    simp only [score]
    omega
  omega

theorem endWord_endLine_idem (reader : Reader) :
    reader.endWord.endLine.endWord.endLine = reader.endWord.endLine := by
  cases here : reader.word with
  | none => by_cases empty : reader.words.isEmpty = true <;> simp [endWord, endLine, endCommand, *]
  | some word => simp [endWord, endLine, endCommand, here]

theorem feedPlain_newline (reader : Reader) : reader.feedPlain 10 = reader.endWord.endLine := rfl

/-- The newline at the end of a script is worth at most one. -/
theorem commands_le_of_newline {reader : Reader}
    (ends : (reader.feedByte 10).mode = .plain ∨ (reader.feedByte 10).mode = .comment) :
    commandsScore (reader.feedByte 10).endWord.endLine.commands ≤ reader.score + 1 := by
  have bound := reader.endWord_endLine_commands_le
  cases here : reader.mode <;> simp only [feedByte, here] at ends ⊢
  case plain => rwa [feedPlain_newline, endWord_endLine_idem]
  case escape =>
    simp only [if_true]
    exact (endWord_endLine_commands_le _).trans
      (Nat.add_le_add_right (reader.enter_score_le .plain) 1)
  case single => simp [here] at ends
  case double => simp [feedDouble, enter] at ends
  case doubleEscape => simp [feedDoubleEscape, enter] at ends
  case doubleName name => simp [isNameByte, feedDouble, enter] at ends
  case comment =>
    simp only [if_true, feedPlain_newline, endWord_endLine_idem]
    exact (endWord_endLine_commands_le _).trans
      (Nat.add_le_add_right (reader.enter_score_le .plain) 1)

theorem endWord_endLine_empty (reader : Reader) :
    reader.endWord.endLine.words = [] ∧ reader.endWord.endLine.word = none := by
  cases here : reader.word with
  | none => by_cases empty : reader.words = [] <;> simp [endWord, endLine, endCommand, *]
  | some word => simp [endWord, endLine, endCommand, here]

end Reader

/-- A script whose commands hold a literal byte or the end of a word for each of its bytes. -/
theorem tight_of_readCommands {body : List UInt8} {commands : List Command}
    (reads : readCommands (body ++ [10]) = some commands)
    (full : commandsScore commands = body.length + 1) :
    Reader.start.Tight (body ++ [10]) ∧
      (commands.map fun command => command.words.length).sum =
        (body ++ [10]).countP isBoundary := by
  obtain ⟨same, ends⟩ := readCommands_eq_some reads
  have last : Reader.start.feed (body ++ [10]) = (Reader.start.feed body).feedByte 10 := by
    rw [Reader.feed_append]
    rfl
  rw [last] at same ends
  have enough := Reader.commands_le_of_newline ends
  have most := Reader.start.feed_score_le body
  have nothing : Reader.start.score = 0 := rfl
  have tightBody : Reader.start.Tight body := by
    rw [same, full] at enough
    simp only [Reader.Tight, nothing] at most ⊢
    omega
  have plain := tightBody.mode rfl
  have fed : (Reader.start.feed body).feedByte 10 = (Reader.start.feed body).endWord.endLine := by
    rw [Reader.feedByte, plain]
    rfl
  rw [fed, Reader.endWord_endLine_idem] at same
  obtain ⟨noWords, noWord⟩ := (Reader.start.feed body).endWord_endLine_empty
  have tight : Reader.start.Tight (body ++ [10]) := by
    rw [Reader.Tight, last, fed, Reader.score, same, full, noWords, noWord, Reader.endLine_mode,
      Reader.endWord_mode, plain, nothing]
    simp [Mode.credit]
  have counted := tight.wordCount rfl
  rw [last, fed, Reader.wordCount, same, noWords] at counted
  refine ⟨tight, ?_⟩
  simpa [Reader.wordCount, Reader.start] using counted

/-! ### Lines that are read as they are meant -/

def marked : List (List UInt8) → List (List UInt8 × UInt8)
  | [] => []
  | [field] => [(field, 10)]
  | field :: rest => (field, 32) :: marked rest

def spell (entries : List (List UInt8 × UInt8)) : List UInt8 :=
  entries.flatMap fun entry => entry.1 ++ [entry.2]

def isMark (mark : UInt8) : Prop :=
  mark = 32 ∨ mark = 10

theorem marked_fields (fields : List (List UInt8)) : (marked fields).map Prod.fst = fields := by
  induction fields with
  | nil => rfl
  | cons field rest ih =>
      cases rest with
      | nil => rfl
      | cons next rest => simp [marked, ih]

theorem marked_marks (fields : List (List UInt8)) : ∀ entry ∈ marked fields, isMark entry.2 := by
  induction fields with
  | nil => simp [marked]
  | cons field rest ih =>
      cases rest with
      | nil => simp [marked, isMark]
      | cons next rest =>
          simp only [marked, List.mem_cons, forall_eq_or_imp]
          exact ⟨.inl rfl, ih⟩

theorem line_eq_spell {fields : List (List UInt8)} (nonempty : fields ≠ []) :
    line fields = spell (marked fields) := by
  induction fields with
  | nil => exact absurd rfl nonempty
  | cons field rest ih =>
      cases rest with
      | nil => simp [line, joinFields, marked, spell]
      | cons next rest =>
          have later := ih (by simp)
          have shape : line (field :: next :: rest) = (field ++ [32]) ++ line (next :: rest) := by
            simp [line, joinFields, List.intercalate]
          rw [shape, later]
          simp [marked, spell]

theorem lines_eq_spell {lines : List (List (List UInt8))} (nonempty : ∀ fields ∈ lines, fields ≠ []) :
    lines.flatMap line = spell (lines.flatMap marked) := by
  rw [spell, List.flatMap_assoc]
  exact List.flatMap_congr fun fields member => line_eq_spell (nonempty fields member)

theorem spell_length (entries : List (List UInt8 × UInt8)) :
    (spell entries).length = wordsScore (entries.map fun entry => literal entry.1) := by
  induction entries with
  | nil => rfl
  | cons entry entries ih =>
      simp only [spell, List.flatMap_cons, List.length_append, List.length_singleton] at ih ⊢
      rw [ih, List.map_cons, ← List.singleton_append, wordsScore_append, wordsScore_singleton,
        literals_literal]

theorem isBoundary_of_isMark {mark : UInt8} (known : isMark mark) : isBoundary mark = true := by
  rcases known with rfl | rfl <;> rfl

theorem spell_boundaries {entries : List (List UInt8 × UInt8)}
    (marks : ∀ entry ∈ entries, isMark entry.2) :
    (spell entries).countP isBoundary =
      (entries.map fun entry => entry.1.countP isBoundary).sum + entries.length := by
  induction entries with
  | nil => rfl
  | cons entry entries ih =>
      simp only [List.mem_cons, forall_eq_or_imp] at marks
      have one : [entry.2].countP isBoundary = 1 := by
        simp [isBoundary_of_isMark marks.1]
      simp only [spell, List.flatMap_cons, List.countP_append] at ih ⊢
      rw [ih marks.2, one]
      simp only [List.map_cons, List.sum_cons, List.length_cons]
      omega

namespace Reader

theorem feedByte_mark {reader : Reader} {mark : UInt8} (plain : reader.mode = .plain)
    (known : isMark mark) : (reader.feedByte mark).word = none ∧
      (reader.word = none → (reader.feedByte mark).score = reader.score) := by
  rcases known with rfl | rfl
  · have fed : reader.feedByte 32 = reader.endWord := by
      rw [feedByte, plain]
      rfl
    rw [fed]
    refine ⟨?_, fun outside => by rw [endWord, outside]⟩
    cases here : reader.word <;> simp [endWord, here]
  · have fed : reader.feedByte 10 = reader.endWord.endLine := by
      rw [feedByte, plain]
      rfl
    rw [fed, endLine_score]
    exact ⟨reader.endWord_endLine_empty.2, fun outside => by rw [endWord, outside]⟩

theorem Tight.literalWords {reader : Reader} {entries : List (List UInt8 × UInt8)}
    (tight : reader.Tight (spell entries)) (plain : reader.mode = .plain)
    (outside : reader.word = none) (marks : ∀ entry ∈ entries, isMark entry.2)
    (inner : ∀ entry ∈ entries, entry.1.countP isBoundary = 0) :
    ∀ entry ∈ entries, isLiteralWord entry.1 = true := by
  induction entries generalizing reader with
  | nil => simp
  | cons entry entries ih =>
      simp only [List.mem_cons, forall_eq_or_imp] at marks inner ⊢
      have shape : spell (entry :: entries) = (entry.1 ++ [entry.2]) ++ spell entries := rfl
      rw [shape] at tight
      obtain ⟨front, back⟩ := tight.split
      obtain ⟨field, mark⟩ := front.split
      have inside := field.mode plain
      obtain ⟨ends, nothing⟩ := feedByte_mark inside marks.1
      have fed : reader.feed (entry.1 ++ [entry.2]) = (reader.feed entry.1).feedByte entry.2 := by
        rw [feed_append]
        rfl
      obtain ⟨all, first⟩ := field.literal plain inner.1
      refine ⟨?_, ih back ?_ (fed ▸ ends) marks.2 inner.2⟩
      · cases here : entry.1 with
        | nil =>
            have gained : ((reader.feed entry.1).feedByte entry.2).score =
                (reader.feed entry.1).score + 1 := mark
            rw [here, feed_nil] at gained
            rw [here, feed_nil] at nothing
            rw [nothing outside] at gained
            omega
        | cons byte rest =>
            rw [here] at all first
            simp only [List.mem_cons, forall_eq_or_imp] at all
            simp only [isLiteralWord, Bool.and_eq_true, List.all_eq_true]
            exact ⟨first outside byte rfl, all.2⟩
      · exact front.mode plain

end Reader

/-- A script of lines is read as the commands it spells exactly if all its words are literal. -/
theorem readCommands_lines_iff {lines : List (List (List UInt8))}
    (nonempty : ∀ fields ∈ lines, fields ≠ []) :
    readCommands (lines.flatMap line) = some (lines.map fun fields => ⟨fields.map literal, 10⟩) ↔
      ∀ fields ∈ lines, ∀ field ∈ fields, isLiteralWord field = true := by
  constructor
  · intro reads fields listed field member
    have entries : (lines.flatMap marked).map Prod.fst = lines.flatten := by
      rw [List.map_flatMap, List.flatten_eq_flatMap]
      exact List.flatMap_congr fun fields _ => marked_fields fields
    have marks : ∀ entry ∈ lines.flatMap marked, isMark entry.2 := by
      intro entry inside
      obtain ⟨fields, -, here⟩ := List.mem_flatMap.mp inside
      exact marked_marks fields entry here
    have some : ∃ body, spell (lines.flatMap marked) = body ++ [10] := by
      obtain ⟨front, last, rfl⟩ : ∃ front last, lines = front ++ [last] :=
        ⟨_, _, (List.dropLast_append_getLast (List.ne_nil_of_mem listed)).symm⟩
      refine ⟨front.flatMap line ++ joinFields last, ?_⟩
      rw [← lines_eq_spell nonempty, List.flatMap_append]
      simp [line]
    obtain ⟨body, split⟩ := some
    have words : ∀ commands : List (List (List UInt8)),
        commandsScore (commands.map fun fields => ⟨fields.map literal, 10⟩) =
          wordsScore (commands.flatten.map literal) := by
      intro commands
      induction commands with
      | nil => rfl
      | cons fields commands ih =>
          rw [List.map_cons, ← List.singleton_append, commandsScore_append,
            commandsScore_singleton, ih, List.flatten_cons, List.map_append, wordsScore_append]
    have full : commandsScore (lines.map fun fields => ⟨fields.map literal, 10⟩) =
        body.length + 1 := by
      have total := spell_length (lines.flatMap marked)
      rw [split, List.length_append, List.length_singleton] at total
      rw [words, ← entries, List.map_map, total]
      rfl
    rw [lines_eq_spell nonempty, split] at reads
    obtain ⟨tight, counted⟩ := tight_of_readCommands reads full
    rw [← split] at tight counted
    have lengths : ((lines.map fun fields => (⟨fields.map literal, 10⟩ : Command)).map
        fun command => command.words.length).sum = (lines.flatMap marked).length := by
      rw [← List.length_map Prod.fst, entries, List.length_flatten, List.map_map]
      simp [Function.comp_def]
    have inner : ∀ entry ∈ lines.flatMap marked, entry.1.countP isBoundary = 0 := by
      rw [spell_boundaries marks, lengths] at counted
      intro entry inside
      have part := List.single_le_sum (fun _ _ => Nat.zero_le _)
        _ (List.mem_map_of_mem (f := fun entry => entry.1.countP isBoundary) inside)
      omega
    have all := tight.literalWords rfl rfl marks inner
    have here : field ∈ (lines.flatMap marked).map Prod.fst := by
      rw [entries]
      exact List.mem_flatten_of_mem listed member
    obtain ⟨entry, inside, rfl⟩ := List.mem_map.mp here
    exact all entry inside
  · intro known
    have words : lines.map (fun fields => (⟨fieldWords fields, 10⟩ : Command)) =
        lines.map fun fields => ⟨fields.map literal, 10⟩ :=
      List.map_congr_left fun fields listed => by rw [fieldWords_literal (known fields listed)]
    rw [← words]
    refine readCommands_lines (fun fields listed field member =>
      isField_of_literal (known fields listed field member)) fun fields listed => ?_
    rw [fieldWords_literal (known fields listed)]
    simpa using nonempty fields listed

end Shell
