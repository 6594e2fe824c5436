import ProxySet.Redsocks.ConfigText
import ProxySet.Redsocks.ParserToken

/-!
What an accepted configuration file can put into the variables of redsocks: texts of
tokens, each of which stands in one piece in the file.
-/

namespace ProxySet

open Lines

/-! ### Tokens in the file -/

section

variable {raw text : Bytes}

theorem isQuotable_cons (byte : UInt8) (rest : Bytes) :
    isQuotable (byte :: rest) = true ↔ (byte ≠ 34 ∧ byte ≠ 92) ∧ isQuotable rest = true := by
  simp [isQuotable]

theorem Escaped.length_le (escaped : Escaped raw text) : text.length ≤ raw.length := by
  induction escaped with
  | nil => exact le_rfl
  | plain notQuote notEscape inner ih =>
      simp only [List.length_cons]
      omega
  | escape known inner ih =>
      simp only [List.length_cons]
      omega

theorem Escaped.verbatim (escaped : Escaped raw text) (plain : 92 ∉ raw) :
    isQuotable text = true := by
  induction escaped with
  | nil => rfl
  | plain notQuote notEscape inner ih =>
      simp only [List.mem_cons, not_or] at plain
      exact (isQuotable_cons _ _).mpr ⟨⟨notQuote, notEscape⟩, ih plain.2⟩
  | escape known inner ih => simp at plain

theorem Escaped.longer (escaped : Escaped raw text) (special : 92 ∈ raw) :
    text.length < raw.length := by
  induction escaped with
  | nil => simp at special
  | plain notQuote notEscape inner ih =>
      have inside := (List.mem_cons.mp special).resolve_left (Ne.symm notEscape)
      have shorter := ih inside
      simp only [List.length_cons]
      omega
  | escape known inner ih =>
      have shorter := inner.length_le
      simp only [List.length_cons]
      omega

theorem Escaped.oneLine (escaped : Escaped raw text) (line : 10 ∉ text) : 10 ∉ raw := by
  induction escaped with
  | nil => simp
  | plain notQuote notEscape inner ih =>
      simp only [List.mem_cons, not_or] at line ⊢
      exact ⟨line.1, ih line.2⟩
  | @escape escaped raw text known inner ih =>
      simp only [List.mem_cons, not_or] at line ⊢
      have notNewline : escaped ≠ 10 := by
        rintro rfl
        exact known rfl
      exact ⟨by decide, notNewline.symm, ih line.2⟩

theorem isQuotable_of_wordByte {byte : UInt8}
    (known : (isWordByte byte || byte == 47) = true) : byte ≠ 34 ∧ byte ≠ 92 := by
  have checked := forall_byte
    (fun byte => !(isWordByte byte || byte == 47) || (byte != 34 && byte != 92))
    (by decide +kernel) byte
  rw [known] at checked
  simpa using checked

theorem isNumberText_byte (number : isNumberText text = true) {byte : UInt8}
    (member : byte ∈ text) : (isWordByte byte || byte == 47) = true := by
  induction text with
  | nil => simp at member
  | cons first rest ih =>
      simp only [isNumberText, Bool.and_eq_true] at number
      rcases List.mem_cons.mp member with rfl | later
      · have goes := number.1
        simp only [numberGoes, Bool.or_eq_true, Bool.and_eq_true] at goes
        rcases goes with (digit | dot) | ⟨slash, -⟩
        · simp [isWordByte, isalnum, digit]
        · simp [isWordByte, dot]
        · simp [slash]
      · exact ih number.2 later

theorem isQuotable_number (number : isNumberText text = true) : isQuotable text = true := by
  refine List.all_eq_true.mpr fun byte member => ?_
  simpa using isQuotable_of_wordByte (isNumberText_byte number member)

theorem isQuotable_word (inside : ∀ byte ∈ text, isWordByte byte = true) :
    isQuotable text = true := by
  refine List.all_eq_true.mpr fun byte member => ?_
  have known : (isWordByte byte || byte == 47) = true := by simp [inside byte member]
  simpa using isQuotable_of_wordByte known

theorem isQuotable_of_plainText (known : isPlainText text = true) : isQuotable text = true := by
  simp only [isPlainText, Bool.or_eq_true, Bool.and_eq_true, List.all_eq_true] at known
  rcases known with ⟨-, word⟩ | ⟨-, number⟩
  · exact isQuotable_word word
  · exact isQuotable_number number

theorem TokenText.quoted {token : Token} {rest : Bytes} (cut : TokenText token raw rest)
    (special : isQuotable token.text = false) :
    ∃ body, raw = 34 :: body ++ [34] ∧ Escaped body token.text ∧ 92 ∈ body := by
  cases cut with
  | mark second =>
      rcases second with rfl | rfl
      · exact absurd special (by decide)
      · exact absurd special (by decide)
  | spelled spelling =>
      cases spelling with
      | @quoted body text rest escaped =>
          refine ⟨body, rfl, escaped, ?_⟩
          by_contra plain
          exact absurd (escaped.verbatim plain) (Bool.eq_false_iff.mp special)
      | @punctuation byte rest known =>
          have checked := forall_byte
            (fun byte => !isPunctuation byte || isQuotable [byte]) (by decide +kernel) byte
          simp [known, special] at checked
      | word first inside =>
          exact absurd (isQuotable_word inside) (Bool.eq_false_iff.mp special)
      | number first number =>
          exact absurd (isQuotable_number number) (Bool.eq_false_iff.mp special)

end

theorem readText_cut (comments : Copytype → Bool) (text : Bytes) :
    ∀ token ∈ (readText comments text).tokens,
      ∃ raw rest, TokenText token raw rest ∧ raw <:+: text := by
  induction text using lex_induction comments with
  | stop text ending step => simp [readText_step, step]
  | skip text rest step ih =>
      have behind := (lexStep_goes_suffix none step).1
      rw [readText_step text, step]
      intro token member
      obtain ⟨raw, later, cut, inside⟩ := ih token member
      exact ⟨raw, later, cut, inside.trans behind.isInfix⟩
  | token text found rest step ih =>
      have behind := (lexStep_goes_suffix (some found) step).1
      obtain ⟨copytype, word, iter, scanned, shape⟩ := lexStep_goes (some found) step
      simp only [reduceCtorEq, false_and, Option.some.injEq, false_or] at shape
      obtain ⟨rfl, rfl, -⟩ := shape
      rw [readText_step text, step]
      simp only [Reading.push, List.mem_cons, forall_eq_or_imp]
      refine ⟨?_, fun token member => ?_⟩
      · obtain ⟨raw, cut, split⟩ := (gettoken_form scanned).cut
        have inside : raw <:+: text.dropWhile isspace := ⟨[], rest, by simp [split]⟩
        exact ⟨raw, rest, cut, inside.trans (List.dropWhile_suffix _).isInfix⟩
      · obtain ⟨raw, later, cut, inside⟩ := ih token member
        exact ⟨raw, later, cut, inside.trans behind.isInfix⟩

/-! ### Values of the blocks -/

theorem Spelled.value_mem {texts : List Bytes} {assigns : List (Bytes × Bytes)}
    (shape : Spelled texts assigns) {assign : Bytes × Bytes} (member : assign ∈ assigns) :
    assign.2 ∈ texts ∧ isPunctuationText assign.2 = false := by
  induction shape with
  | nil => simp at member
  | cons first second word other shape ih =>
      rcases List.mem_cons.mp member with rfl | later
      · exact ⟨by simp [spelled], other⟩
      · obtain ⟨inside, plain⟩ := ih later
        exact ⟨List.mem_append_right _ inside, plain⟩

theorem LooseBlocks.value_mem {carried texts : List Bytes} {blocks : List Block}
    (loose : LooseBlocks carried texts blocks) {block : Block} (listed : block ∈ blocks)
    {assign : Bytes × Bytes} (member : assign ∈ block.assigns) :
    assign.2 ∈ carried ++ texts ∧ isPunctuationText assign.2 = false := by
  induction loose with
  | nil => simp at listed
  | @cons carried left body full texts name key value assigns blocks word split shape front loose ih =>
      have reach {text : Bytes} (inside : text ∈ full ++ left) :
          text ∈ carried ++ (name :: [123] :: body ++ [125] :: texts) := by
        rw [← split] at inside
        rcases List.mem_append.mp inside with early | late
        · exact List.mem_append_left _ early
        · refine List.mem_append_right _ ?_
          simp [late]
      rcases List.mem_cons.mp listed with rfl | later
      · obtain ⟨inside, plain⟩ := shape.value_mem member
        exact ⟨reach (List.mem_append_left _ inside), plain⟩
      · obtain ⟨inside, plain⟩ := ih later
        refine ⟨?_, plain⟩
        rcases List.mem_append.mp inside with early | late
        · exact reach (List.mem_append_right _ early)
        · refine List.mem_append_right _ ?_
          simp [late]

/-! ### What a run of the blocks keeps -/

section

variable {Memory : Type} {platform : Platform} {sections : List (ParserSection Memory)}

/-- Callbacks of these sections keep it, and so does an assignment of one of these values. -/
structure Kept (platform : Platform) (sections : List (ParserSection Memory))
    (values : Bytes → Prop) (holds : Memory → Prop) : Prop where
  hook : ∀ current ∈ sections, ∀ action, current.onenter = some action ∨
    current.onexit = some action → ∀ memory after, holds memory → action memory = .ok after →
    holds after
  assign : ∀ current ∈ sections, ∀ entry ∈ current.entries, ∀ text value memory, values text →
    valueParserByType platform entry.type text = .ok value → holds memory →
    holds (entry.store value memory)

variable {values : Bytes → Prop} {holds : Memory → Prop}

theorem Kept.runHook (kept : Kept platform sections values holds)
    {current : ParserSection Memory} (listed : current ∈ sections)
    {hook : Option (Memory → Except Bytes Memory)}
    (own : hook = current.onenter ∨ hook = current.onexit) {call : ParserCall}
    {effect after : Effect Memory} (known : holds effect.1)
    (ran : runHook hook call effect = some after) : holds after.1 := by
  cases hook with
  | none =>
      obtain rfl := Option.some.inj ran
      exact known
  | some action =>
      have which := own.imp Eq.symm Eq.symm
      cases called : action effect.1 with
      | error message => simp [ProxySet.runHook, called] at ran
      | ok memory =>
          simp only [ProxySet.runHook, called, Option.some.injEq] at ran
          subst ran
          exact kept.hook current listed action which _ _ known called

theorem Kept.runAssign (kept : Kept platform sections values holds)
    {current : ParserSection Memory} (listed : current ∈ sections) {assign : Bytes × Bytes}
    (value : values assign.2) {effect after : Effect Memory} (known : holds effect.1)
    (ran : runAssign platform current effect assign = some after) : holds after.1 := by
  unfold ProxySet.runAssign at ran
  cases found : current.entries.find? (·.key == assign.1) with
  | none => simp [found] at ran
  | some entry =>
      cases parsed : valueParserByType platform entry.type assign.2 with
      | error messages => simp [found, parsed] at ran
      | ok result =>
          simp only [found, parsed, Option.some.injEq] at ran
          subst ran
          exact kept.assign current listed entry (List.mem_of_find?_eq_some found) _ _ _ value
            parsed known

theorem Kept.runBody (kept : Kept platform sections values holds)
    {current : ParserSection Memory} (listed : current ∈ sections)
    {assigns : List (Bytes × Bytes)} (each : ∀ assign ∈ assigns, values assign.2)
    {effect after : Effect Memory} (known : holds effect.1)
    (ran : runBody platform current assigns effect = some after) : holds after.1 := by
  induction assigns generalizing effect with
  | nil => exact kept.runHook listed (.inr rfl) known ran
  | cons assign rest ih =>
      simp only [List.mem_cons, forall_eq_or_imp] at each
      obtain ⟨next, assigned, later⟩ := Option.bind_eq_some_iff.mp ran
      exact ih each.2 (kept.runAssign listed each.1 known assigned) later

theorem Kept.runBlocks (kept : Kept platform sections values holds) {blocks : List Block}
    (each : ∀ block ∈ blocks, ∀ assign ∈ block.assigns, values assign.2)
    {effect after : Effect Memory} (known : holds effect.1)
    (ran : runBlocks platform sections blocks effect = some after) : holds after.1 := by
  induction blocks generalizing effect with
  | nil =>
      obtain rfl := Option.some.inj ran
      exact known
  | cons block rest ih =>
      simp only [List.mem_cons, forall_eq_or_imp] at each
      obtain ⟨next, first, later⟩ := Option.bind_eq_some_iff.mp ran
      refine ih each.2 ?_ later
      unfold runBlock at first
      cases found : sections.find? (·.name == block.name) with
      | none => simp [found] at first
      | some current =>
          have listed := List.mem_of_find?_eq_some found
          simp only [found] at first
          obtain ⟨entered, enters, body⟩ := Option.bind_eq_some_iff.mp first
          exact kept.runBody listed each.1 (kept.runHook listed (.inl rfl) known enters) body

end

/-! ### The login and the password of a relay -/

structure RedsocksConfig.Sourced (values : Bytes → Prop) (config : RedsocksConfig) : Prop where
  login : ∀ login ∈ config.login, values login
  password : ∀ password ∈ config.password, values password

structure ConfigMemory.Sourced (values : Bytes → Prop) (memory : ConfigMemory) : Prop where
  redsocks : memory.redsocks.Sourced values
  instances : ∀ config ∈ memory.instances, config.Sourced values

section

variable {values : Bytes → Prop}

theorem sourced_fresh : RedsocksConfig.fresh.Sourced values where
  login := by simp [RedsocksConfig.fresh]
  password := by simp [RedsocksConfig.fresh]

theorem sourced_hook : ∀ current ∈ configSections, ∀ action, current.onenter = some action ∨
    current.onexit = some action → ∀ memory after, ConfigMemory.Sourced values memory →
    action memory = .ok after → after.Sourced values := by
  simp only [configSections, List.mem_cons, List.not_mem_nil, or_false, forall_eq_or_imp, forall_eq,
    dnstcSection, baseSection, redsocksSection, Option.some.injEq]
  refine ⟨?_, ?_, ?_⟩
  · rintro action (rfl | rfl) memory after known done
    · cases done
      exact ⟨known.redsocks, known.instances⟩
    · cases done
      exact ⟨known.redsocks, known.instances⟩
  · rintro action (rfl | rfl) memory after known done
    · unfold baseOnenter at done
      split at done
      · cases done
      · cases done
        exact ⟨known.redsocks, known.instances⟩
    · unfold baseOnexit at done
      split at done
      · cases done
      · split at done
        · cases done
          exact ⟨known.redsocks, known.instances⟩
        · cases done
  · rintro action (rfl | rfl) memory after known done
    · cases done
      exact ⟨sourced_fresh, known.instances⟩
    · unfold redsocksOnexit at done
      split at done
      · cases done
      · split_ifs at done
        cases done
        exact ⟨known.redsocks, List.forall_mem_cons.mpr ⟨known.redsocks, known.instances⟩⟩

theorem sourced_assign (platform : Platform) : ∀ current ∈ configSections,
    ∀ entry ∈ current.entries, ∀ text value memory, values text →
    valueParserByType platform entry.type text = .ok value → ConfigMemory.Sourced values memory →
    ConfigMemory.Sourced values (entry.store value memory) := by
  intro current listed entry member text value memory known parsed sourced
  have pchar (other : Bytes) (same : valueParserByType platform .pchar text = .ok (.pchar other)) :
      values other := by
    cases same
    exact known
  simp only [configSections, List.mem_cons, List.not_mem_nil, or_false] at listed
  rcases listed with rfl | rfl | rfl
  · simp only [dnstcSection, dnstcEntries, List.mem_cons, List.not_mem_nil, or_false] at member
    rcases member with rfl | rfl <;> cases value <;> exact ⟨sourced.redsocks, sourced.instances⟩
  · simp only [baseSection, baseEntries, List.mem_cons, List.not_mem_nil, or_false] at member
    rcases member with rfl | rfl | rfl | rfl | rfl | rfl | rfl | rfl | rfl | rfl | rfl <;>
      cases value <;> exact ⟨sourced.redsocks, sourced.instances⟩
  · simp only [redsocksSection, redsocksEntries, List.mem_cons, List.not_mem_nil, or_false] at member
    rcases member with rfl | rfl | rfl | rfl | rfl | rfl | rfl | rfl | rfl | rfl <;>
      try
        cases value <;>
          exact ⟨⟨sourced.redsocks.login, sourced.redsocks.password⟩, sourced.instances⟩
    · cases value with
      | pchar found =>
          refine ⟨⟨?_, sourced.redsocks.password⟩, sourced.instances⟩
          rintro login (same : some found = some login)
          exact Option.some.inj same ▸ pchar found parsed
      | _ => exact sourced
    · cases value with
      | pchar found =>
          refine ⟨⟨sourced.redsocks.login, ?_⟩, sourced.instances⟩
          rintro password (same : some found = some password)
          exact Option.some.inj same ▸ pchar found parsed
      | _ => exact sourced

theorem sourced_kept (platform : Platform) :
    Kept platform configSections values (ConfigMemory.Sourced values) where
  hook := sourced_hook
  assign := sourced_assign platform

end

/-- A value that a file can have assigned: the text of a token that stands in it and is neither
punctuation nor the mark of a comment. -/
structure Assignable (file text : Bytes) : Prop where
  cut : ∃ token raw rest, TokenText token raw rest ∧ raw <:+: file ∧ token.text = text
  noPunctuation : isPunctuationText text = false
  noMark : isMarkText text = false

/-- What redsocks has read as a login or a password. -/
theorem parserRun_sourced {platform : Platform} {file : Bytes} (nulFree : 0 ∉ file)
    (accepts : (parserRun platform configSections .start file).returned = some 0) :
    (parserRun platform configSections .start file).vars.memory.Sourced (Assignable file) := by
  obtain ⟨tokens, rest, blocks, reads, loose, ran, -⟩ := loose_of_accepts nulFree accepts
  obtain ⟨tail, split, -⟩ := exists_tail 10 file
  have front : whole 10 file <:+: file := ⟨[], tail, by simpa using split.symm⟩
  have started : ConfigMemory.start.Sourced (Assignable file) :=
    ⟨sourced_fresh, by simp [ConfigMemory.start]⟩
  refine (sourced_kept platform).runBlocks (fun block listed assign member => ?_) started ran
  obtain ⟨inside, plain⟩ := loose.value_mem listed member
  rw [List.nil_append] at inside
  obtain ⟨token, found, same⟩ := List.mem_map.mp inside
  have known : token ∈ (readText everyMark (whole 10 file)).tokens := by rwa [reads]
  obtain ⟨raw, later, cut, within⟩ := readText_cut everyMark _ token known
  have unmarked := everyMark_tokens _ token known
  rw [same] at unmarked
  exact ⟨⟨token, raw, later, cut, within.trans front, same⟩, plain, unmarked⟩

/-! ### Lines with one string in quotes -/

namespace ConfBlock

def lines (values : Bytes → Bytes) (block : ConfBlock) : List Bytes :=
  (block.name ++ [32, 123]) :: block.assigns.map (fun assign =>
    32 :: (assign.1 ++ [32, 61, 32]) ++ assign.2.render values ++ [59]) ++
    [blanks block.before ++ 125 :: blanks block.after]

end ConfBlock

def ConfText.lines (values : Bytes → Bytes) (conf : ConfText) : List Bytes :=
  [] :: conf.blocks.flatMap (ConfBlock.lines values) ++ [blanks conf.tail]

theorem block_lines (values : Bytes → Bytes) (block : ConfBlock) :
    block.render values = (block.lines values).flatMap (· ++ [10]) := by
  have assigns : ConfBlock.assignRender values = fun assign =>
      32 :: (assign.1 ++ [32, 61, 32]) ++ assign.2.render values ++ [59] ++ [10] := by
    funext assign
    simp [ConfBlock.assignRender]
  rw [ConfBlock.render, assigns, ConfBlock.lines]
  simp [List.flatMap_map]

theorem text_lines (values : Bytes → Bytes) (conf : ConfText) :
    conf.render values = (conf.lines values).flatMap (· ++ [10]) := by
  have blocks : conf.blocks.flatMap (ConfBlock.render values) =
      (conf.blocks.flatMap (ConfBlock.lines values)).flatMap (· ++ [10]) := by
    rw [List.flatMap_assoc]
    exact List.flatMap_congr fun block _ => block_lines values block
  rw [ConfText.render, blocks]
  simp [ConfText.lines]

theorem file_lines (values : Bytes → Bytes) (confs : List ConfText) :
    confs.flatMap (ConfText.render values) =
      (confs.flatMap (ConfText.lines values)).flatMap (· ++ [10]) := by
  rw [List.flatMap_assoc]
  exact List.flatMap_congr fun conf _ => text_lines values conf

def PlainLine (line : Bytes) : Prop :=
  ∀ byte ∈ line, byte ≠ 0 ∧ byte ≠ 34

theorem PlainLine.append {first second : Bytes} (plain : PlainLine first) (more : PlainLine second) :
    PlainLine (first ++ second) :=
  List.forall_mem_append.mpr ⟨plain, more⟩

theorem plainLine_of_plainText {text : Bytes} (known : isPlainText text = true) :
    PlainLine text := by
  have words := forall_byte
    (fun byte => !(isWordByte byte || byte == 47) || (byte != 0 && byte != 34)) (by decide +kernel)
  intro byte member
  have inside : (isWordByte byte || byte == 47) = true := by
    simp only [isPlainText, Bool.or_eq_true, Bool.and_eq_true, List.all_eq_true] at known
    rcases known with ⟨-, word⟩ | ⟨-, number⟩
    · simp [word byte member]
    · exact isNumberText_byte number member
  simpa [inside] using words byte

theorem plainLine_blanks (count : Nat) : PlainLine (blanks count) := by
  intro byte member
  rw [List.eq_of_mem_replicate member]
  decide

theorem line_plain {values : Bytes → Bytes} {block : ConfBlock} (known : block.WellFormed values)
    (unquoted : ∀ assign ∈ block.assigns, ∀ name, assign.2 ≠ .quoted name) :
    ∀ line ∈ block.lines values, PlainLine line := by
  have fixed : PlainLine [32, 123] ∧ PlainLine [32] ∧ PlainLine [32, 61, 32] ∧ PlainLine [59] ∧
      PlainLine [125] := by
    simp [PlainLine]
  obtain ⟨opens, blank, equals, ends, closes⟩ := fixed
  simp only [ConfBlock.lines, List.mem_append, List.mem_cons, List.mem_map, List.not_mem_nil,
    or_false]
  rintro line ((rfl | ⟨assign, listed, rfl⟩) | rfl)
  · exact (plainLine_of_plainText known.name).append opens
  · have key := plainLine_of_plainText (known.keys assign listed)
    have value : PlainLine (assign.2.render values) := by
      have wellFormed := known.values assign listed
      cases kind : assign.2 with
      | quoted name => exact absurd kind (unquoted assign listed name)
      | word text =>
          rw [kind] at wellFormed
          exact plainLine_of_plainText wellFormed
      | param name =>
          rw [kind] at wellFormed
          exact plainLine_of_plainText wellFormed
    exact ((blank.append (key.append equals)).append value).append ends
  · exact (plainLine_blanks _).append (closes.append (plainLine_blanks _))

theorem infix_cut {raw front behind : Bytes} {mark : UInt8} (unmarked : mark ∉ raw)
    (inside : raw <:+: front ++ mark :: behind) : raw <:+: front ∨ raw <:+: behind := by
  obtain ⟨before, after, split⟩ := inside
  rw [List.append_assoc] at split
  rcases List.append_eq_append_iff.mp split with ⟨middle, rfl, later⟩ | ⟨middle, rfl, later⟩
  · rcases List.append_eq_append_iff.mp later with ⟨rest, rfl, -⟩ | ⟨rest, rfl, ended⟩
    · exact .inl ⟨before, rest, by simp⟩
    · cases rest with
      | nil => exact .inl ⟨before, [], by simp⟩
      | cons byte rest =>
          obtain ⟨rfl, -⟩ := List.cons.inj ended
          simp at unmarked
  · cases middle with
    | nil =>
        cases raw with
        | nil => exact .inl (List.nil_infix)
        | cons byte rest =>
            obtain ⟨rfl, -⟩ := List.cons.inj later
            simp at unmarked
    | cons byte middle =>
        obtain ⟨-, rfl⟩ := List.cons.inj later
        exact .inr ⟨middle, after, by simp⟩

theorem infix_of_lines {raw : Bytes} (nonempty : raw ≠ []) (oneLine : 10 ∉ raw)
    {lines : List Bytes} (inside : raw <:+: lines.flatMap (· ++ [10])) :
    ∃ line ∈ lines, raw <:+: line := by
  induction lines with
  | nil => exact absurd (List.infix_nil.mp inside) nonempty
  | cons line lines ih =>
      rw [List.flatMap_cons, List.append_assoc, List.singleton_append] at inside
      rcases infix_cut oneLine inside with here | later
      · exact ⟨line, by simp, here⟩
      · obtain ⟨other, listed, within⟩ := ih later
        exact ⟨other, List.mem_cons_of_mem _ listed, within⟩

def QuotesOnly (texts : List Bytes) (line : Bytes) : Prop :=
  34 ∉ line ∨ ∃ front, ∃ text ∈ texts,
    line = front ++ 34 :: (text ++ [34, 59]) ∧ 34 ∉ front ∧ 92 ∉ front

theorem quoted_in_line {front text body : Bytes} (noQuote : 34 ∉ front) (noEscape : 92 ∉ front)
    (inside : 34 :: body ++ [34] <:+: front ++ 34 :: (text ++ [34, 59])) :
    body.length ≤ text.length ∧ (92 ∈ body → 92 ∈ text) := by
  constructor
  · obtain ⟨before, after, split⟩ := inside
    have sizes := congrArg List.length split
    simp only [List.length_append, List.length_cons, List.length_nil] at sizes
    have late : front.length ≤ before.length := by
      rw [List.append_assoc] at split
      rcases List.append_eq_append_iff.mp split with ⟨middle, rfl, later⟩ | ⟨middle, rfl, -⟩
      · cases middle with
        | nil => simp
        | cons byte middle =>
            obtain ⟨rfl, -⟩ := List.cons.inj later
            simp at noQuote
      · simp
    have some : after ≠ [] := by
      rintro rfl
      have left : before ++ (34 :: body ++ [34]) ++ [] = (before ++ 34 :: body) ++ [34] := by simp
      have right : front ++ 34 :: (text ++ [34, 59]) = (front ++ 34 :: (text ++ [34])) ++ [59] := by
        simp
      rw [left, right] at split
      exact absurd (List.append_inj' split rfl).2 (by decide)
    have positive := List.length_pos_iff.mpr some
    omega
  · intro member
    have escaped : (92 : UInt8) ∈ front ++ 34 :: (text ++ [34, 59]) :=
      inside.subset (by simp [member])
    simpa [noEscape] using escaped

/-- A text with a quote or a backslash is read from the inside of a longer one of its kind. -/
theorem Assignable.longer {file text : Bytes} (assignable : Assignable file text)
    (special : isQuotable text = false) (oneLine : 10 ∉ text) {lines texts : List Bytes}
    (split : file = lines.flatMap (· ++ [10])) (each : ∀ line ∈ lines, QuotesOnly texts line) :
    ∃ other ∈ texts, text.length < other.length ∧ isQuotable other = false := by
  obtain ⟨token, raw, rest, cut, inside, rfl⟩ := assignable.cut
  obtain ⟨body, rfl, escaped, backslash⟩ := cut.quoted special
  have bodyLine := escaped.oneLine oneLine
  have rawLine : 10 ∉ 34 :: body ++ [34] := by simp [bodyLine]
  rw [split] at inside
  obtain ⟨line, listed, within⟩ := infix_of_lines cut.nonempty rawLine inside
  rcases each line listed with unquoted | ⟨front, other, member, rfl, noQuote, noEscape⟩
  · exact absurd (within.subset (by simp)) unquoted
  · obtain ⟨bounded, kept⟩ := quoted_in_line noQuote noEscape within
    refine ⟨other, member, (escaped.longer backslash).trans_le bounded, ?_⟩
    rw [isQuotable, List.all_eq_false]
    exact ⟨92, kept backslash, by decide⟩

end ProxySet
