import ProxySet.Lib.ShellWords
import ProxySet.Redsocks.ConfigCore
import ProxySet.Redsocks.Numbers
import ProxySet.Redsocks.ParserLayout

/-!
Configuration files that a script writes line by line, with the values of its
variables in them: how they are tokenized, and what the parser does with them.
-/

namespace ProxySet

open Lines Shell

/-! ### Lines -/

inductive ConfValue where
  | word (text : Bytes)
  | param (name : Bytes)
  | quoted (name : Bytes)
  deriving DecidableEq

structure ConfBlock where
  name : Bytes
  assigns : List (Bytes × ConfValue)
  /-- The blanks in front of the brace that closes the block, and behind it. -/
  before : Nat
  after : Nat
  deriving DecidableEq

/-- The text of one `echo`: an empty line, blocks, and a line of blanks. -/
structure ConfText where
  blocks : List ConfBlock
  tail : Nat
  deriving DecidableEq

def blanks (count : Nat) : Bytes :=
  List.replicate count 32

namespace ConfValue

def pieces : ConfValue → Word
  | .word text => literal text
  | .param name => [.param name]
  | .quoted name => [.lit 34, .param name, .lit 34]

def text (values : Bytes → Bytes) : ConfValue → Bytes
  | .word text => text
  | .param name => values name
  | .quoted name => values name

def render (values : Bytes → Bytes) : ConfValue → Bytes
  | .word text => text
  | .param name => values name
  | .quoted name => 34 :: (values name ++ [34])

def token (values : Bytes → Bytes) : ConfValue → Token
  | .word text => ⟨.plainstr, text⟩
  | .param name => ⟨.plainstr, values name⟩
  | .quoted name => ⟨.cstr, values name⟩

end ConfValue

namespace ConfBlock

def assignPieces (assign : Bytes × ConfValue) : Word :=
  literal (32 :: (assign.1 ++ [32, 61, 32])) ++ assign.2.pieces ++ literal [59, 10]

def pieces (block : ConfBlock) : Word :=
  literal (block.name ++ [32, 123, 10]) ++ block.assigns.flatMap assignPieces ++
    literal (blanks block.before ++ 125 :: (blanks block.after ++ [10]))

def assignRender (values : Bytes → Bytes) (assign : Bytes × ConfValue) : Bytes :=
  32 :: (assign.1 ++ [32, 61, 32]) ++ assign.2.render values ++ [59, 10]

def render (values : Bytes → Bytes) (block : ConfBlock) : Bytes :=
  block.name ++ [32, 123, 10] ++ block.assigns.flatMap (assignRender values) ++
    (blanks block.before ++ 125 :: (blanks block.after ++ [10]))

def assignTokens (values : Bytes → Bytes) (assign : Bytes × ConfValue) : List Token :=
  [⟨.plainstr, assign.1⟩, .symbol 61, assign.2.token values, .symbol 59]

def tokens (values : Bytes → Bytes) (block : ConfBlock) : List Token :=
  ⟨.plainstr, block.name⟩ :: .symbol 123 ::
    (block.assigns.flatMap (assignTokens values) ++ [.symbol 125])

def block (values : Bytes → Bytes) (block : ConfBlock) : Block where
  name := block.name
  assigns := block.assigns.map fun assign => (assign.1, assign.2.text values)

end ConfBlock

namespace ConfText

def pieces (conf : ConfText) : Word :=
  literal [10] ++ conf.blocks.flatMap ConfBlock.pieces ++ literal (blanks conf.tail ++ [10])

def render (values : Bytes → Bytes) (conf : ConfText) : Bytes :=
  10 :: (conf.blocks.flatMap (ConfBlock.render values) ++ (blanks conf.tail ++ [10]))

def tokens (values : Bytes → Bytes) (conf : ConfText) : List Token :=
  conf.blocks.flatMap (ConfBlock.tokens values)

end ConfText

/-! ### The text of a script -/

section

variable (values : Bytes → Bytes)

theorem expand_value (value : ConfValue) : expand values value.pieces = some (value.render values) := by
  cases value <;> simp [ConfValue.pieces, ConfValue.render, expand]

theorem expand_flatMap {Item : Type} (pieces : Item → Word) (render : Item → Bytes)
    (items : List Item) (each : ∀ item ∈ items, expand values (pieces item) = some (render item)) :
    expand values (items.flatMap pieces) = some (items.flatMap render) := by
  induction items with
  | nil => rfl
  | cons item items ih =>
      simp only [List.mem_cons, forall_eq_or_imp] at each
      rw [List.flatMap_cons, List.flatMap_cons, expand_append, each.1, ih each.2]
      rfl

theorem expand_assign (assign : Bytes × ConfValue) :
    expand values (ConfBlock.assignPieces assign) =
      some (ConfBlock.assignRender values assign) := by
  rw [ConfBlock.assignPieces, expand_append, expand_append, expand_literal, expand_value,
    expand_literal]
  rfl

theorem expand_block (block : ConfBlock) :
    expand values block.pieces = some (block.render values) := by
  rw [ConfBlock.pieces, expand_append, expand_append, expand_literal,
    expand_flatMap values _ _ _ fun assign _ => expand_assign values assign, expand_literal]
  rfl

theorem expand_text (conf : ConfText) : expand values conf.pieces = some (conf.render values) := by
  rw [ConfText.pieces, expand_append, expand_append, expand_literal,
    expand_flatMap values _ _ _ fun block _ => expand_block values block, expand_literal]
  rfl

end

/-! ### The source of a script -/

def ConfValue.source : ConfValue → Bytes
  | .word text => text
  | .param name => 36 :: name
  | .quoted name => [92, 34, 36] ++ name ++ [92, 34]

namespace ConfBlock

def assignSource (assign : Bytes × ConfValue) : Bytes :=
  32 :: (assign.1 ++ [32, 61, 32]) ++ assign.2.source ++ [59, 10]

def source (block : ConfBlock) : Bytes :=
  block.name ++ [32, 123, 10] ++ block.assigns.flatMap assignSource ++
    (blanks block.before ++ 125 :: (blanks block.after ++ [10]))

end ConfBlock

def ConfText.source (conf : ConfText) : Bytes :=
  10 :: (conf.blocks.flatMap ConfBlock.source ++ blanks conf.tail)

def isName (name : Bytes) : Bool :=
  !name.isEmpty && name.all (isNameByte [])

def ConfValue.readable : ConfValue → Bool
  | .word text => text.all Reader.isQuotedByte
  | .param name => isName name
  | .quoted name => isName name

def ConfBlock.readable (block : ConfBlock) : Bool :=
  block.name.all Reader.isQuotedByte &&
    block.assigns.all fun assign => assign.1.all Reader.isQuotedByte && assign.2.readable

section

variable (commands : List Command) (words : List Word)

theorem feed_quoted (word : Word) {text : Bytes} (known : text.all Reader.isQuotedByte = true) :
    (Reader.inDouble commands words word).feed text =
      Reader.inDouble commands words (word ++ literal text) :=
  Reader.feed_inDouble commands words word (List.all_eq_true.mp known)

theorem feed_name (word : Word) {name : Bytes} (known : isName name = true) {byte : UInt8}
    (ends : byte = 59 ∨ byte = 92) :
    (Reader.inDouble commands words word).feed (36 :: (name ++ [byte])) =
      (Reader.inDouble commands words (word ++ [.param name])).feedByte byte := by
  simp only [isName, Bool.and_eq_true, Bool.not_eq_true', List.isEmpty_eq_false_iff,
    List.all_eq_true] at known
  refine Reader.feed_param commands words word known.1 known.2 ?_
  rcases ends with rfl | rfl <;> cases name <;> rfl

/-- The end of a value is known by the semicolon behind it. -/
theorem feed_value (word : Word) {value : ConfValue} (known : value.readable = true) :
    (Reader.inDouble commands words word).feed (value.source ++ [59, 10]) =
      Reader.inDouble commands words (word ++ value.pieces ++ literal [59, 10]) := by
  have closed (front : Word) : (Reader.inDouble commands words front).feed [59, 10] =
      Reader.inDouble commands words (front ++ literal [59, 10]) :=
    feed_quoted commands words front rfl
  cases value with
  | word text =>
      rw [ConfValue.source, Reader.feed_append, feed_quoted commands words word known, closed,
        ConfValue.pieces]
  | param name =>
      have split : ConfValue.source (.param name) ++ [59, 10] = (36 :: (name ++ [59])) ++ [10] := by
        simp [ConfValue.source]
      rw [split, Reader.feed_append, feed_name commands words word known (.inl rfl),
        ← Reader.feed_cons, closed, ConfValue.pieces]
  | quoted name =>
      have split : ConfValue.source (.quoted name) ++ [59, 10] =
          [92, 34] ++ ((36 :: (name ++ [92])) ++ ([34] ++ [59, 10])) := by
        simp [ConfValue.source]
      have opened : (Reader.inDouble commands words word).feed [92, 34] =
          Reader.inDouble commands words (word ++ [.lit 34]) := rfl
      have ended (front : Word) : ((Reader.inDouble commands words front).feedByte 92).feed [34] =
          Reader.inDouble commands words (front ++ [.lit 34]) := rfl
      rw [split, Reader.feed_append, opened, Reader.feed_append,
        feed_name commands words _ known (.inr rfl), Reader.feed_append, ended, closed,
        ConfValue.pieces]
      simp

theorem feed_assign (word : Word) {assign : Bytes × ConfValue}
    (key : assign.1.all Reader.isQuotedByte = true) (value : assign.2.readable = true) :
    (Reader.inDouble commands words word).feed (ConfBlock.assignSource assign) =
      Reader.inDouble commands words (word ++ ConfBlock.assignPieces assign) := by
  have front : (32 :: (assign.1 ++ [32, 61, 32])).all Reader.isQuotedByte = true := by
    simp only [List.all_cons, List.all_append, key, List.all_nil]
    decide
  rw [ConfBlock.assignSource, List.append_assoc, Reader.feed_append,
    feed_quoted commands words word front, feed_value commands words _ value,
    ConfBlock.assignPieces]
  simp only [List.append_assoc]

theorem feed_flatMap {Item : Type} (source : Item → Bytes) (pieces : Item → Word)
    {items : List Item} (each : ∀ item ∈ items, ∀ word,
      (Reader.inDouble commands words word).feed (source item) =
        Reader.inDouble commands words (word ++ pieces item)) (word : Word) :
    (Reader.inDouble commands words word).feed (items.flatMap source) =
      Reader.inDouble commands words (word ++ items.flatMap pieces) := by
  induction items generalizing word with
  | nil => simp
  | cons item items ih =>
      simp only [List.mem_cons, forall_eq_or_imp] at each
      rw [List.flatMap_cons, Reader.feed_append, each.1 word, ih each.2, List.flatMap_cons,
        List.append_assoc]

theorem blanks_all (count : Nat) : (blanks count).all Reader.isQuotedByte = true := by
  simp only [blanks, List.all_replicate]
  cases count <;> rfl

theorem feed_block (word : Word) {block : ConfBlock} (known : block.readable = true) :
    (Reader.inDouble commands words word).feed block.source =
      Reader.inDouble commands words (word ++ block.pieces) := by
  simp only [ConfBlock.readable, Bool.and_eq_true] at known
  obtain ⟨name, assigns⟩ := known
  have front : (block.name ++ [32, 123, 10]).all Reader.isQuotedByte = true := by
    rw [List.all_append, name]
    decide
  have back : (blanks block.before ++ 125 :: (blanks block.after ++ [10])).all
      Reader.isQuotedByte = true := by
    rw [List.all_append, List.all_cons, List.all_append, blanks_all, blanks_all]
    decide
  have body := feed_flatMap commands words ConfBlock.assignSource ConfBlock.assignPieces
    fun assign member word => by
      have one := List.all_eq_true.mp assigns assign member
      rw [Bool.and_eq_true] at one
      exact feed_assign commands words word one.1 one.2
  rw [ConfBlock.source, List.append_assoc, Reader.feed_append,
    feed_quoted commands words word front, Reader.feed_append _ (List.flatMap _ _), body,
    feed_quoted commands words _ back, ConfBlock.pieces]
  simp only [List.append_assoc]

theorem feed_text (word : Word) {conf : ConfText}
    (known : conf.blocks.all ConfBlock.readable = true) :
    (Reader.inDouble commands words word).feed conf.source =
      Reader.inDouble commands words
        (word ++ (literal [10] ++ conf.blocks.flatMap ConfBlock.pieces ++
          literal (blanks conf.tail))) := by
  have body := feed_flatMap commands words ConfBlock.source ConfBlock.pieces
    fun block member word => feed_block commands words word (List.all_eq_true.mp known block member)
  have newline : (Reader.inDouble commands words word).feedByte 10 =
      Reader.inDouble commands words (word ++ literal [10]) := rfl
  rw [ConfText.source, Reader.feed_cons, newline, Reader.feed_append, body,
    feed_quoted commands words _ (blanks_all conf.tail)]
  simp only [List.append_assoc]

end

/-! ### The tokens -/

def isPlainText (text : Bytes) : Bool :=
  (text.head?.any isalpha && text.all isWordByte) ||
    (text.head?.any isdigit && isNumberText text)

def isQuotable (text : Bytes) : Bool :=
  text.all fun byte => byte != 34 && byte != 92

def ConfValue.WellFormed (values : Bytes → Bytes) : ConfValue → Prop
  | .word text => isPlainText text = true
  | .param name => isPlainText (values name) = true
  | .quoted name => isQuotable (values name) = true

structure ConfBlock.WellFormed (values : Bytes → Bytes) (block : ConfBlock) : Prop where
  name : isPlainText block.name = true
  keys : ∀ assign ∈ block.assigns, isPlainText assign.1 = true
  values : ∀ assign ∈ block.assigns, assign.2.WellFormed values

theorem Gap.blanks {count : Nat} {gap : Bytes} (later : Gap gap) : Gap (blanks count ++ gap) := by
  induction count with
  | zero => exact later
  | succ count ih => exact .space rfl ih

theorem Gap.newline {gap : Bytes} (later : Gap gap) : Gap (10 :: gap) :=
  .space rfl later

theorem Rendered.plain {text rest : Bytes} {tokens : List Token} (known : isPlainText text = true)
    {byte : UInt8} (ends : byte = 32 ∨ byte = 59) (later : Rendered (byte :: rest) tokens) :
    Rendered (text ++ byte :: rest) (⟨.plainstr, text⟩ :: tokens) := by
  have spelled : Spelling ⟨.plainstr, text⟩ text (byte :: rest) := by
    simp only [isPlainText, Bool.or_eq_true, Bool.and_eq_true, List.all_eq_true] at known
    rcases known with ⟨first, inside⟩ | ⟨first, inside⟩
    · refine .word first inside ⟨byte, rest, rfl, ?_⟩
      rcases ends with rfl | rfl <;> decide
    · refine .number first inside ⟨byte, rest, rfl, ?_⟩
      rcases ends with rfl | rfl
      · exact ⟨by decide, by decide, fun slash => absurd slash (by decide)⟩
      · exact ⟨by decide, by decide, fun slash => absurd slash (by decide)⟩
  exact Rendered.cons .nil spelled later

theorem Rendered.symbol {byte : UInt8} {rest : Bytes} {tokens : List Token}
    (known : isPunctuation byte = true) (later : Rendered rest tokens) :
    Rendered (byte :: rest) (.symbol byte :: tokens) :=
  Rendered.cons .nil (.punctuation known) later

theorem Rendered.blank {rest : Bytes} {tokens : List Token} (later : Rendered rest tokens) :
    Rendered (32 :: rest) tokens :=
  Rendered.after_gap (.space rfl .nil) later

theorem Rendered.newline {rest : Bytes} {tokens : List Token} (later : Rendered rest tokens) :
    Rendered (10 :: rest) tokens :=
  Rendered.after_gap (.space rfl .nil) later

theorem escaped_self {text : Bytes} (known : isQuotable text = true) : Escaped text text := by
  induction text with
  | nil => exact .nil
  | cons byte text ih =>
      simp only [isQuotable, List.all_cons, Bool.and_eq_true, bne_iff_ne] at known
      exact .plain known.1.1 known.1.2 (ih known.2)

section

variable {values : Bytes → Bytes} {rest : Bytes} {tokens : List Token}

theorem value_rendered {value : ConfValue} (known : value.WellFormed values)
    (later : Rendered (59 :: rest) tokens) :
    Rendered (value.render values ++ 59 :: rest) (value.token values :: tokens) := by
  cases value with
  | word text => exact Rendered.plain known (.inr rfl) later
  | param name => exact Rendered.plain known (.inr rfl) later
  | quoted name =>
      have spelled : Spelling ⟨.cstr, values name⟩ (34 :: values name ++ [34]) (59 :: rest) :=
        .quoted (escaped_self known)
      simpa [ConfValue.render, ConfValue.token] using Rendered.cons .nil spelled later

theorem assign_rendered {assign : Bytes × ConfValue} (key : isPlainText assign.1 = true)
    (value : assign.2.WellFormed values) (later : Rendered rest tokens) :
    Rendered (ConfBlock.assignRender values assign ++ rest)
      (ConfBlock.assignTokens values assign ++ tokens) := by
  have closed : Rendered (59 :: 10 :: rest) (.symbol 59 :: tokens) :=
    Rendered.symbol rfl (Rendered.newline later)
  have valued := value_rendered value closed
  have equals := Rendered.blank (Rendered.symbol (rfl : isPunctuation 61 = true) valued.blank)
  have named := Rendered.plain key (.inl rfl) equals
  simpa [ConfBlock.assignRender, ConfBlock.assignTokens] using named.blank

theorem assigns_rendered {assigns : List (Bytes × ConfValue)}
    (keys : ∀ assign ∈ assigns, isPlainText assign.1 = true)
    (known : ∀ assign ∈ assigns, assign.2.WellFormed values) (later : Rendered rest tokens) :
    Rendered (assigns.flatMap (ConfBlock.assignRender values) ++ rest)
      (assigns.flatMap (ConfBlock.assignTokens values) ++ tokens) := by
  induction assigns with
  | nil => exact later
  | cons assign assigns ih =>
      simp only [List.mem_cons, forall_eq_or_imp] at keys known
      rw [List.flatMap_cons, List.flatMap_cons, List.append_assoc, List.append_assoc]
      exact assign_rendered keys.1 known.1 (ih keys.2 known.2)

theorem block_rendered {block : ConfBlock} (known : block.WellFormed values)
    (later : Rendered rest tokens) :
    Rendered (block.render values ++ rest) (block.tokens values ++ tokens) := by
  have behind : Rendered (blanks block.after ++ 10 :: rest) tokens := by
    have gap : Gap (blanks block.after ++ [10]) := Gap.blanks (Gap.newline .nil)
    simpa using Rendered.after_gap gap later
  have closing : Rendered (blanks block.before ++ 125 :: (blanks block.after ++ 10 :: rest))
      (.symbol 125 :: tokens) := by
    have gap : Gap (blanks block.before ++ []) := Gap.blanks .nil
    rw [List.append_nil] at gap
    exact Rendered.after_gap gap (Rendered.symbol rfl behind)
  have body := assigns_rendered known.keys known.values closing
  have opened := Rendered.blank (Rendered.symbol (rfl : isPunctuation 123 = true) body.newline)
  have named := Rendered.plain known.name (.inl rfl) opened
  simpa [ConfBlock.render, ConfBlock.tokens] using named

theorem text_rendered {conf : ConfText} (known : ∀ block ∈ conf.blocks, block.WellFormed values)
    (later : Rendered rest tokens) :
    Rendered (conf.render values ++ rest) (conf.tokens values ++ tokens) := by
  have behind : Rendered (blanks conf.tail ++ 10 :: rest) tokens := by
    have gap : Gap (blanks conf.tail ++ [10]) := Gap.blanks (Gap.newline .nil)
    simpa using Rendered.after_gap gap later
  have all : ∀ blocks : List ConfBlock, (∀ block ∈ blocks, block.WellFormed values) →
      Rendered (blocks.flatMap (ConfBlock.render values) ++ (blanks conf.tail ++ 10 :: rest))
        (blocks.flatMap (ConfBlock.tokens values) ++ tokens) := by
    intro blocks known
    induction blocks with
    | nil => exact behind
    | cons block blocks ih =>
        simp only [List.mem_cons, forall_eq_or_imp] at known
        rw [List.flatMap_cons, List.flatMap_cons, List.append_assoc, List.append_assoc]
        exact block_rendered known.1 (ih known.2)
  simpa [ConfText.render, ConfText.tokens] using (all conf.blocks known).newline

theorem texts_rendered {confs : List ConfText}
    (known : ∀ conf ∈ confs, ∀ block ∈ conf.blocks, block.WellFormed values) :
    Rendered (confs.flatMap (ConfText.render values)) (confs.flatMap (ConfText.tokens values)) := by
  induction confs with
  | nil => exact .nil .nil
  | cons conf confs ih =>
      simp only [List.mem_cons, forall_eq_or_imp] at known
      rw [List.flatMap_cons, List.flatMap_cons]
      exact text_rendered known.1 (ih known.2)

end

/-! ### The parser -/

def confBlocks (values : Bytes → Bytes) (confs : List ConfText) : List Block :=
  confs.flatMap fun conf => conf.blocks.map (ConfBlock.block values)

def ConfValue.Plain (values : Bytes → Bytes) : ConfValue → Prop
  | .quoted name => isPunctuationText (values name) = false ∧ isMarkText (values name) = false
  | _ => True

section

variable {values : Bytes → Bytes}

theorem isPunctuationText_of_plain {text : Bytes} (known : isPlainText text = true) :
    isPunctuationText text = false := by
  have first : ∃ byte rest, text = byte :: rest ∧ (isalpha byte || isdigit byte) = true := by
    cases text with
    | nil => simp [isPlainText] at known
    | cons byte rest =>
        simp only [isPlainText, List.head?_cons, Option.any_some, Bool.or_eq_true,
          Bool.and_eq_true] at known
        refine ⟨byte, rest, rfl, ?_⟩
        rcases known with ⟨first, -⟩ | ⟨first, -⟩ <;> simp [first]
  obtain ⟨byte, rest, rfl, first⟩ := first
  have checked := forall_byte (fun byte => !(isalpha byte || isdigit byte) ||
    (byte != 123 && byte != 125 && byte != 61 && byte != 59)) (by decide +kernel) byte
  simp only [first, Bool.not_true, Bool.false_or, Bool.and_eq_true, bne_iff_ne] at checked
  simp [isPunctuationText, checked]

theorem isWord_value {value : ConfValue} (known : value.WellFormed values) :
    (value.token values).isWord = true := by
  cases value with
  | word text => simp [ConfValue.token, Token.isWord, isPunctuationText_of_plain known]
  | param name => simp [ConfValue.token, Token.isWord, isPunctuationText_of_plain known]
  | quoted name => simp [ConfValue.token, Token.isWord]

theorem token_text (value : ConfValue) : (value.token values).text = value.text values := by
  cases value <;> rfl

theorem assigns_shape {assigns : List (Bytes × ConfValue)}
    (keys : ∀ assign ∈ assigns, isPlainText assign.1 = true)
    (known : ∀ assign ∈ assigns, assign.2.WellFormed values) :
    AssignTokens (assigns.flatMap (ConfBlock.assignTokens values))
      (assigns.map fun assign => (assign.1, assign.2.text values)) := by
  induction assigns with
  | nil => exact .nil
  | cons assign assigns ih =>
      simp only [List.mem_cons, forall_eq_or_imp] at keys known
      have key : Token.isWord ⟨.plainstr, assign.1⟩ = true := by
        simp [Token.isWord, isPunctuationText_of_plain keys.1]
      have shape := AssignTokens.cons key (isWord_value known.1) (ih keys.2 known.2)
      rw [token_text] at shape
      exact shape

theorem blocks_shape {blocks : List ConfBlock}
    (known : ∀ block ∈ blocks, block.WellFormed values) {tokens : List Token}
    {more : List Block} (later : BlockTokens tokens more) :
    BlockTokens (blocks.flatMap (ConfBlock.tokens values) ++ tokens)
      (blocks.map (ConfBlock.block values) ++ more) := by
  induction blocks with
  | nil => exact later
  | cons block blocks ih =>
      simp only [List.mem_cons, forall_eq_or_imp] at known
      have name : Token.isWord ⟨.plainstr, block.name⟩ = true := by
        simp [Token.isWord, isPunctuationText_of_plain known.1.name]
      have shape := BlockTokens.cons name (assigns_shape known.1.keys known.1.values) (ih known.2)
      simpa [ConfBlock.tokens, ConfBlock.block] using shape

theorem texts_shape {confs : List ConfText}
    (known : ∀ conf ∈ confs, ∀ block ∈ conf.blocks, block.WellFormed values) :
    BlockTokens (confs.flatMap (ConfText.tokens values)) (confBlocks values confs) := by
  induction confs with
  | nil => exact .nil
  | cons conf confs ih =>
      simp only [List.mem_cons, forall_eq_or_imp] at known
      rw [confBlocks, List.flatMap_cons, List.flatMap_cons]
      exact blocks_shape known.1 (ih known.2)

theorem token_cases {conf : ConfText} {token : Token} (member : token ∈ conf.tokens values) :
    token.copytype = .plainstr ∨ ∃ block ∈ conf.blocks, ∃ assign ∈ block.assigns, ∃ name,
      assign.2 = .quoted name ∧ token = ⟨.cstr, values name⟩ := by
  obtain ⟨block, inConf, inBlock⟩ := List.mem_flatMap.mp member
  simp only [ConfBlock.tokens, List.mem_cons, List.mem_append, List.not_mem_nil, or_false,
    List.mem_flatMap] at inBlock
  rcases inBlock with rfl | rfl | ⟨assign, inAssigns, inAssign⟩ | rfl
  · exact .inl rfl
  · exact .inl rfl
  · simp only [ConfBlock.assignTokens, List.mem_cons, List.not_mem_nil, or_false] at inAssign
    rcases inAssign with rfl | rfl | rfl | rfl
    · exact .inl rfl
    · exact .inl rfl
    · cases value : assign.2 with
      | word text => exact .inl rfl
      | param name => exact .inl rfl
      | quoted name => exact .inr ⟨block, inConf, assign, inAssigns, name, value, rfl⟩
    · exact .inl rfl
  · exact .inl rfl

theorem token_of_quoted {conf : ConfText} {block : ConfBlock} (inConf : block ∈ conf.blocks)
    {assign : Bytes × ConfValue} (inBlock : assign ∈ block.assigns) {name : Bytes}
    (quoted : assign.2 = .quoted name) : ⟨.cstr, values name⟩ ∈ conf.tokens values := by
  have inAssign : ⟨.cstr, values name⟩ ∈ ConfBlock.assignTokens values assign := by
    simp [ConfBlock.assignTokens, quoted, ConfValue.token]
  have inBody : ⟨.cstr, values name⟩ ∈ block.assigns.flatMap (ConfBlock.assignTokens values) :=
    List.mem_flatMap.mpr ⟨assign, inBlock, inAssign⟩
  exact List.mem_flatMap.mpr ⟨block, inConf, by simp [ConfBlock.tokens, inBody]⟩

theorem token_undisguised {conf : ConfText}
    (plain : ∀ block ∈ conf.blocks, ∀ assign ∈ block.assigns, assign.2.Plain values)
    {token : Token} (member : token ∈ conf.tokens values) : token.isDisguised = false := by
  rcases token_cases member with unquoted | ⟨block, inConf, assign, inBlock, name, quoted, rfl⟩
  · simp [Token.isDisguised, unquoted]
  · have known := plain block inConf assign inBlock
    rw [quoted] at known
    simp [Token.isDisguised, known.1, known.2]

/-! ### One way to read it -/

theorem Unfinished.no_semicolon {left : List Bytes} {key value : Option Bytes}
    (front : Unfinished left key value) : [59] ∉ left := by
  have punctuation : isPunctuationText [59] = true := rfl
  have apart {text : Bytes} (word : isPunctuationText text = false) : text ≠ [59] := by
    rintro rfl
    simp [punctuation] at word
  cases front with
  | nil => simp
  | key first word => simp [(apart word).symm]
  | value first second word other => simp [(apart word).symm, (apart other).symm]

theorem Unfinished.no_brace {left : List Bytes} {key value : Option Bytes}
    (front : Unfinished left key value) : [125] ∉ left := by
  have punctuation : isPunctuationText [125] = true := rfl
  have apart {text : Bytes} (word : isPunctuationText text = false) : text ≠ [125] := by
    rintro rfl
    simp [punctuation] at word
  cases front with
  | nil => simp
  | key first word => simp [(apart word).symm]
  | value first second word other => simp [(apart word).symm, (apart other).symm]

theorem Spelled.no_brace {texts : List Bytes} {assigns : List (Bytes × Bytes)}
    (shape : Spelled texts assigns) : [125] ∉ texts := by
  induction shape with
  | nil => simp
  | cons first second word other shape ih =>
      have front := (Unfinished.value first second word other).no_brace
      simp only [spelled, List.mem_append, not_or] at front ⊢
      exact ⟨⟨front, by decide⟩, ih⟩

theorem assigns_unique {tokens : List Token} {assigns : List (Bytes × Bytes)}
    (shape : AssignTokens tokens assigns)
    (undisguised : ∀ token ∈ tokens, token.isDisguised = false) {full left : List Bytes}
    {others : List (Bytes × Bytes)} {key value : Option Bytes} (spells : Spelled full others)
    (front : Unfinished left key value) (same : tokens.map (·.text) = full ++ left) :
    others = assigns ∧ left = [] := by
  induction shape generalizing full others with
  | nil =>
      obtain ⟨rfl, rfl⟩ := List.append_eq_nil_iff.mp same.symm
      cases spells with
      | nil => exact ⟨rfl, rfl⟩
  | @cons key value tokens assigns keyWord valueWord shape ih =>
      simp only [List.mem_cons, forall_eq_or_imp] at undisguised
      obtain ⟨-, -, plainValue, -, plainRest⟩ := undisguised
      have noValue := Token.text_of_isWord valueWord plainValue
      have notEquals : value.text ≠ [61] := by
        intro equals
        rw [equals] at noValue
        exact absurd noValue (by decide)
      simp only [List.map_cons, Token.symbol] at same
      cases spells with
      | nil =>
          have inside : [59] ∈ left := by
            rw [List.nil_append] at same
            rw [← same]
            simp
          exact absurd inside front.no_semicolon
      | @cons otherKey otherValue texts more first second word other later =>
          have otherEquals : otherValue ≠ [61] := by
            rintro rfl
            exact absurd other (by decide)
          simp only [spelled, List.cons_append, List.append_assoc, List.cons.injEq] at same
          obtain ⟨rfl, same⟩ := same
          rcases first with _ | _ | first
          · simp only [List.replicate_zero, List.nil_append, List.cons.injEq] at same
            exact absurd same.1.symm otherEquals
          · simp only [zero_add, List.replicate_one, List.singleton_append, List.cons.injEq,
              true_and] at same
            obtain ⟨rfl, same⟩ := same
            cases second with
            | zero =>
                simp only [List.replicate_zero, List.nil_append, List.cons.injEq, true_and] at same
                obtain ⟨rfl, nothing⟩ := ih plainRest later same
                exact ⟨rfl, nothing⟩
            | succ second => simp [List.replicate_succ] at same
          · simp only [List.replicate_succ, List.cons_append, List.cons.injEq, true_and] at same
            exact absurd same.1 notEquals

/-- Where every token is what it looks like, the parser has one way to read the blocks. -/
theorem blocks_unique {tokens : List Token} {blocks : List Block} (shape : BlockTokens tokens blocks)
    (undisguised : ∀ token ∈ tokens, token.isDisguised = false) {others : List Block}
    (loose : LooseBlocks [] (tokens.map (·.text)) others) : others = blocks := by
  induction shape generalizing others with
  | nil =>
      cases loose with
      | nil => rfl
  | @cons name body tokens assigns blocks nameWord bodyShape rest ih =>
      simp only [List.cons_append, List.mem_cons, List.mem_append, forall_eq_or_imp] at undisguised
      obtain ⟨-, -, later⟩ := undisguised
      have inBody : ∀ token ∈ body, token.isDisguised = false :=
        fun token member => later token (.inl member)
      have inRest : ∀ token ∈ tokens, token.isDisguised = false :=
        fun token member => later token (.inr (.inr member))
      have noBrace : [125] ∉ body.map (·.text) := (bodyShape.spelled inBody).no_brace
      generalize texts : List.map (fun token : Token => token.text)
        (name :: Token.symbol 123 :: body ++ Token.symbol 125 :: tokens) = all at loose
      cases loose with
      | nil => simp at texts
      | @cons carried left otherBody full otherTexts otherName key value otherAssigns otherBlocks
          word split spells front looseRest =>
          rw [List.nil_append] at split
          have otherBrace : [125] ∉ otherBody := by
            rw [split, List.mem_append, not_or]
            exact ⟨spells.no_brace, front.no_brace⟩
          simp only [List.cons_append, List.map_cons, List.map_append, Token.symbol,
            List.cons.injEq, true_and] at texts
          obtain ⟨rfl, texts⟩ := texts
          obtain ⟨sameBody, sameRest⟩ := TokenReader.cut_unique noBrace otherBrace texts
          obtain ⟨rfl, rfl⟩ := assigns_unique bodyShape inBody spells front (sameBody.trans split)
          rw [← sameRest] at looseRest
          rw [ih inRest looseRest]

theorem undisguised_conf {confs : List ConfText}
    (plain : ∀ conf ∈ confs, ∀ block ∈ conf.blocks, ∀ assign ∈ block.assigns,
      assign.2.Plain values) :
    ∀ token ∈ confs.flatMap (ConfText.tokens values), token.isDisguised = false := by
  intro token member
  obtain ⟨conf, inConfs, inConf⟩ := List.mem_flatMap.mp member
  exact token_undisguised (plain conf inConfs) inConf

theorem complete_conf (confs : List ConfText) :
    Complete 10 (confs.flatMap (ConfText.render values)) := by
  induction confs with
  | nil => exact complete_nil
  | cons conf confs ih =>
      have one : Complete 10 (conf.render values) := by
        have shape : conf.render values =
            (10 :: (conf.blocks.flatMap (ConfBlock.render values) ++ blanks conf.tail)) ++ [10] := by
          simp [ConfText.render]
        rw [shape]
        exact complete_concat _
      rw [List.flatMap_cons]
      exact one.append ih

theorem reads_unmarked {confs : List ConfText}
    (known : ∀ conf ∈ confs, ∀ block ∈ conf.blocks, block.WellFormed values)
    (unmarked : ∀ token ∈ confs.flatMap (ConfText.tokens values), token.isQuotedMark = false) :
    readText everyMark (whole 10 (confs.flatMap (ConfText.render values))) =
      ⟨confs.flatMap (ConfText.tokens values), .rest []⟩ := by
  have lexes := (texts_rendered known).lexes
  rw [(complete_conf confs).whole_eq, readText_everyMark, lexes]
  rwa [lexes]

theorem reads_conf {confs : List ConfText}
    (known : ∀ conf ∈ confs, ∀ block ∈ conf.blocks, block.WellFormed values)
    (plain : ∀ conf ∈ confs, ∀ block ∈ conf.blocks, ∀ assign ∈ block.assigns,
      assign.2.Plain values) :
    readText everyMark (whole 10 (confs.flatMap (ConfText.render values))) =
      ⟨confs.flatMap (ConfText.tokens values), .rest []⟩ :=
  reads_unmarked known fun token member =>
    Token.isQuotedMark_of_isDisguised (undisguised_conf plain token member)

section

variable {platform : Platform} {memory : ConfigMemory} {confs : List ConfText}
  (known : ∀ conf ∈ confs, ∀ block ∈ conf.blocks, block.WellFormed values)
  (plain : ∀ conf ∈ confs, ∀ block ∈ conf.blocks, ∀ assign ∈ block.assigns, assign.2.Plain values)
  (nulFree : 0 ∉ confs.flatMap (ConfText.render values))

include known plain nulFree

/-- A file of such lines is accepted if its blocks can be run, and does what they do. -/
theorem parserRun_conf {final : Effect ConfigMemory}
    (ran : runBlocks platform configSections (confBlocks values confs) (memory, []) = some final) :
    (parserRun platform configSections memory
        (confs.flatMap (ConfText.render values))).returned = some 0 ∧
      (parserRun platform configSections memory
        (confs.flatMap (ConfText.render values))).vars.memory = final.1 := by
  rw [accepts_of_loose nulFree (reads_conf known plain)
    ((texts_shape known).loose (undisguised_conf plain)) ran]
  exact ⟨rfl, rfl⟩

omit plain in
/-- In an accepted file no string spells punctuation, if none of them spells a mark. -/
theorem punctuation_of_accepts
    (unmarked : ∀ token ∈ confs.flatMap (ConfText.tokens values), token.isQuotedMark = false)
    (accepts : (parserRun platform configSections memory
      (confs.flatMap (ConfText.render values))).returned = some 0) :
    ∀ token ∈ confs.flatMap (ConfText.tokens values), token.copytype = .cstr →
      isPunctuationText token.text = false := by
  obtain ⟨tokens, rest, blocks, reads, loose, ran, -⟩ := loose_of_accepts nulFree accepts
  rw [reads_unmarked known unmarked] at reads
  obtain ⟨rfl, -⟩ := Reading.mk.inj reads
  exact blocks_plain (texts_shape known) (loose_comes loose .nil ran)

theorem parserRun_conf_refused
    (stuck : runBlocks platform configSections (confBlocks values confs) (memory, []) = none) :
    (parserRun platform configSections memory
      (confs.flatMap (ConfText.render values))).returned ≠ some 0 := by
  intro accepts
  obtain ⟨tokens, rest, blocks, reads, loose, ran, -⟩ := loose_of_accepts nulFree accepts
  rw [reads_conf known plain] at reads
  obtain ⟨rfl, -⟩ := Reading.mk.inj reads
  rw [blocks_unique (texts_shape known) (undisguised_conf plain) loose, stuck] at ran
  simp at ran

end

end

end ProxySet
