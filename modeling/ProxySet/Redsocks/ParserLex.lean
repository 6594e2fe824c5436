import Mathlib.Data.List.Infix
import ProxySet.Lib.Lines
import ProxySet.Redsocks.ParserCore

/-!
The tokens of a whole text, as `gettoken` cuts it and `parser_run` takes comments
out of it.  Reading line by line finds the same tokens: a token or a comment found
in front of a newline does not depend on what stands behind it.
-/

namespace ProxySet

open Lines

structure Token where
  copytype : Copytype
  text : Bytes
  deriving DecidableEq

inductive Ending where
  | rest (text : Bytes)
  | invalid (message : Bytes)
  deriving DecidableEq

structure Reading where
  tokens : List Token
  ending : Ending
  deriving DecidableEq

def Reading.push (token : Token) (reading : Reading) : Reading :=
  { reading with tokens := token :: reading.tokens }

inductive LexStep where
  | stop (ending : Ending)
  | skip (rest : Bytes)
  | token (token : Token) (rest : Bytes)
  deriving DecidableEq

/-- One token or one comment; `comments` says for which kinds of token `//` and `/*` start one. -/
def lexStep (comments : Copytype → Bool) (text : Bytes) : LexStep :=
  match gettoken text with
  | .incomplete iter => .stop (.rest iter)
  | .invalid message _ => .stop (.invalid message)
  | .token copytype word iter =>
      if comments copytype = true ∧ word = [47, 47] then
        match strchr iter 10 with
        | some line => .skip (line.drop 1)
        | none => .stop (.rest [])
      else if comments copytype = true ∧ word = [47, 42] then
        match afterComment iter with
        | some rest => .skip rest
        | none => .stop (.rest (47 :: 42 :: iter))
      else .token ⟨copytype, word⟩ iter

def readFuel (comments : Copytype → Bool) : Nat → Bytes → Reading
  | 0, text => ⟨[], .rest text⟩
  | fuel + 1, text =>
      match lexStep comments text with
      | .stop ending => ⟨[], ending⟩
      | .skip rest => readFuel comments fuel rest
      | .token token rest => (readFuel comments fuel rest).push token

def readText (comments : Copytype → Bool) (text : Bytes) : Reading :=
  readFuel comments (text.length + 1) text

/-- `parser_run` compares texts only, so a quoted mark starts a comment as well. -/
def everyMark : Copytype → Bool := fun _ => true

def plainMark : Copytype → Bool
  | .plainstr => true
  | .cstr => false

/-! ### One token -/

@[simp] theorem Quoted.push_eq_closed {byte : UInt8} {quoted : Quoted} {text rest : Bytes} :
    quoted.push byte = .closed text rest ↔
      ∃ inner, quoted = .closed inner rest ∧ text = byte :: inner := by
  cases quoted <;> simp [Quoted.push, eq_comm, and_comm]

@[simp] theorem Quoted.push_eq_badEscape {byte : UInt8} {quoted : Quoted} :
    quoted.push byte = .badEscape ↔ quoted = .badEscape := by
  cases quoted <;> simp [Quoted.push]

@[simp] theorem scanQuoted_quote (rest : Bytes) : scanQuoted (34 :: rest) = .closed [] rest := by
  unfold scanQuoted
  rfl

@[simp] theorem scanQuoted_backslash : scanQuoted [92] = .open := by
  unfold scanQuoted
  rfl

@[simp] theorem scanQuoted_escape (escaped : UInt8) (behind : Bytes) :
    scanQuoted (92 :: escaped :: behind) =
      if unescape escaped = 0 then .badEscape
      else (scanQuoted behind).push (unescape escaped) := by
  rw [scanQuoted.eq_def]
  rfl

theorem scanQuoted_plain {byte : UInt8} (rest : Bytes) (notQuote : byte ≠ 34)
    (notEscape : byte ≠ 92) : scanQuoted (byte :: rest) = (scanQuoted rest).push byte := by
  rw [scanQuoted.eq_def]
  simp only [notQuote, notEscape, ↓reduceIte]

theorem scanQuoted_closed_append {body text rest : Bytes} (more : Bytes)
    (found : scanQuoted body = .closed text rest) :
    scanQuoted (body ++ more) = .closed text (rest ++ more) := by
  induction body using scanQuoted.induct generalizing text with
  | case1 => simp [scanQuoted] at found
  | case2 body => simp_all
  | case3 => simp at found
  | case4 escaped body bad _ => simp [bad] at found
  | case5 escaped body good _ ih =>
      simp only [scanQuoted_escape, good, ↓reduceIte, Quoted.push_eq_closed] at found
      obtain ⟨inner, closed, rfl⟩ := found
      simp [good, ih closed]
  | case6 byte body notQuote notEscape ih =>
      rw [scanQuoted_plain body notQuote notEscape, Quoted.push_eq_closed] at found
      obtain ⟨inner, closed, rfl⟩ := found
      simp [scanQuoted_plain _ notQuote notEscape, ih closed]

theorem scanQuoted_badEscape_append {body : Bytes} (more : Bytes)
    (bad : scanQuoted body = .badEscape) : scanQuoted (body ++ more) = .badEscape := by
  induction body using scanQuoted.induct with
  | case1 => simp [scanQuoted] at bad
  | case2 body => simp at bad
  | case3 => simp at bad
  | case4 escaped body unknown _ => simp [unknown]
  | case5 escaped body good _ ih =>
      simp only [scanQuoted_escape, good, ↓reduceIte, Quoted.push_eq_badEscape] at bad
      simp [good, ih bad]
  | case6 byte body notQuote notEscape ih =>
      rw [scanQuoted_plain body notQuote notEscape, Quoted.push_eq_badEscape] at bad
      simp [scanQuoted_plain _ notQuote notEscape, ih bad]

theorem scanQuoted_split {body text rest : Bytes} (found : scanQuoted body = .closed text rest) :
    ∃ front, body = front ++ 34 :: rest := by
  induction body using scanQuoted.induct generalizing text with
  | case1 => simp [scanQuoted] at found
  | case2 body =>
      simp only [scanQuoted_quote, Quoted.closed.injEq] at found
      exact ⟨[], by simp [found.2]⟩
  | case3 => simp at found
  | case4 escaped body bad _ => simp [bad] at found
  | case5 escaped body good _ ih =>
      simp only [scanQuoted_escape, good, ↓reduceIte, Quoted.push_eq_closed] at found
      obtain ⟨inner, closed, rfl⟩ := found
      obtain ⟨front, rfl⟩ := ih closed
      exact ⟨92 :: escaped :: front, rfl⟩
  | case6 byte body notQuote notEscape ih =>
      rw [scanQuoted_plain body notQuote notEscape, Quoted.push_eq_closed] at found
      obtain ⟨inner, closed, rfl⟩ := found
      obtain ⟨front, rfl⟩ := ih closed
      exact ⟨byte :: front, rfl⟩

theorem scanWord_append {body text rest : Bytes} (more : Bytes)
    (found : scanWord body = some (text, rest)) :
    scanWord (body ++ more) = some (text, rest ++ more) := by
  induction body generalizing text with
  | nil => simp [scanWord] at found
  | cons byte body ih =>
      by_cases inside : isWordByte byte = true
      · simp only [scanWord, inside, ↓reduceIte, Option.map_eq_some_iff, Prod.mk.injEq] at found
        obtain ⟨⟨inner, behind⟩, scanned, rfl, rfl⟩ := found
        simp [scanWord, inside, ih scanned]
      · simp only [scanWord, inside, Bool.false_eq_true, ↓reduceIte, Option.some.injEq,
          Prod.mk.injEq] at found
        obtain ⟨rfl, rfl⟩ := found
        simp [scanWord, inside]

theorem scanWord_split {body text rest : Bytes} (found : scanWord body = some (text, rest)) :
    body = text ++ rest := by
  induction body generalizing text with
  | nil => simp [scanWord] at found
  | cons byte body ih =>
      by_cases inside : isWordByte byte = true
      · simp only [scanWord, inside, ↓reduceIte, Option.map_eq_some_iff, Prod.mk.injEq] at found
        obtain ⟨⟨inner, behind⟩, scanned, rfl, rfl⟩ := found
        simp [ih scanned]
      · simp only [scanWord, inside, Bool.false_eq_true, ↓reduceIte, Option.some.injEq,
          Prod.mk.injEq] at found
        obtain ⟨rfl, rfl⟩ := found
        rfl

def numberGoes (byte : UInt8) (rest : Bytes) : Bool :=
  isdigit byte || byte == 46 || (byte == 47 && rest.head?.any isdigit)

theorem scanNumber_step (byte : UInt8) (rest : Bytes) :
    scanNumber (byte :: rest) =
      if numberGoes byte rest then
        (scanNumber rest).map fun found => (byte :: found.1, found.2)
      else if byte = 47 then
        if rest.head? = some 47 ∨ rest.head? = some 42 then some ([], byte :: rest) else none
      else some ([], byte :: rest) := by
  rw [scanNumber.eq_def]
  unfold numberGoes
  by_cases digit : (isdigit byte || byte == 46) = true
  · simp [digit]
  · by_cases slash : byte = 47
    · subst slash
      cases rest with
      | nil => simp [isdigit]
      | cons after rest =>
          simp [isdigit]
    · simp [digit, slash]

theorem scanNumber_goes {byte : UInt8} {rest : Bytes} (goes : numberGoes byte rest = true) :
    scanNumber (byte :: rest) = (scanNumber rest).map fun found => (byte :: found.1, found.2) := by
  rw [scanNumber_step, if_pos goes]

theorem scanNumber_stops {byte : UInt8} {body text rest : Bytes}
    (stops : numberGoes byte body = false) (found : scanNumber (byte :: body) = some (text, rest)) :
    text = [] ∧ rest = byte :: body ∧
      (byte = 47 → body.head? = some 47 ∨ body.head? = some 42) := by
  rw [scanNumber_step, if_neg (by simp [stops])] at found
  by_cases slash : byte = 47
  · subst slash
    by_cases comment : body.head? = some 47 ∨ body.head? = some 42
    · simp only [↓reduceIte, comment, Option.some.injEq, Prod.mk.injEq] at found
      exact ⟨found.1.symm, found.2.symm, fun _ => comment⟩
    · simp [comment] at found
  · simp only [slash, ↓reduceIte, Option.some.injEq, Prod.mk.injEq] at found
    exact ⟨found.1.symm, found.2.symm, fun same => absurd same slash⟩

theorem numberGoes_append {byte : UInt8} {body : Bytes} (more : Bytes)
    (known : byte = 47 → body ≠ []) : numberGoes byte (body ++ more) = numberGoes byte body := by
  unfold numberGoes
  by_cases slash : byte = 47
  · cases body with
    | nil => exact absurd rfl (known slash)
    | cons after body => rfl
  · rw [beq_false_of_ne slash, Bool.false_and, Bool.false_and]

theorem scanNumber_append {body text rest : Bytes} (more : Bytes)
    (found : scanNumber body = some (text, rest)) :
    scanNumber (body ++ more) = some (text, rest ++ more) := by
  induction body generalizing text with
  | nil => simp [scanNumber] at found
  | cons byte body ih =>
      cases goes : numberGoes byte body with
      | true =>
          rw [scanNumber_goes goes, Option.map_eq_some_iff] at found
          obtain ⟨⟨inner, behind⟩, scanned, same⟩ := found
          obtain ⟨rfl, rfl⟩ := Prod.mk.inj same
          have nonempty : body ≠ [] := by
            rintro rfl
            simp [scanNumber] at scanned
          rw [List.cons_append, scanNumber_goes (by rwa [numberGoes_append more fun _ => nonempty]),
            ih scanned]
          rfl
      | false =>
          obtain ⟨rfl, rfl, comment⟩ := scanNumber_stops goes found
          have known : byte = 47 → body ≠ [] := by
            rintro slash rfl
            simpa using comment slash
          rw [List.cons_append, scanNumber_step, if_neg]
          · by_cases slash : byte = 47
            · obtain ⟨after, behind, rfl⟩ := List.exists_cons_of_ne_nil (known slash)
              have starts := comment slash
              simp_all
            · simp [slash]
          · rw [numberGoes_append more known, goes]
            exact Bool.false_ne_true

theorem scanNumber_split {body text rest : Bytes} (found : scanNumber body = some (text, rest)) :
    body = text ++ rest := by
  induction body generalizing text with
  | nil => simp [scanNumber] at found
  | cons byte body ih =>
      cases goes : numberGoes byte body with
      | true =>
          rw [scanNumber_goes goes, Option.map_eq_some_iff] at found
          obtain ⟨⟨inner, behind⟩, scanned, same⟩ := found
          obtain ⟨rfl, rfl⟩ := Prod.mk.inj same
          simp [ih scanned]
      | false =>
          obtain ⟨rfl, rfl, -⟩ := scanNumber_stops goes found
          rfl

theorem scanWord_bytes {body text rest : Bytes} (found : scanWord body = some (text, rest)) :
    ∀ byte ∈ text, isWordByte byte = true := by
  induction body generalizing text with
  | nil => simp [scanWord] at found
  | cons byte body ih =>
      by_cases inside : isWordByte byte = true
      · simp only [scanWord, inside, ↓reduceIte, Option.map_eq_some_iff, Prod.mk.injEq] at found
        obtain ⟨⟨inner, behind⟩, scanned, rfl, rfl⟩ := found
        simpa [inside] using ih scanned
      · simp only [scanWord, inside, Bool.false_eq_true, ↓reduceIte, Option.some.injEq,
          Prod.mk.injEq] at found
        simp [← found.1]

theorem scanNumber_bytes {body text rest : Bytes} (found : scanNumber body = some (text, rest)) :
    ∀ byte ∈ text, isdigit byte = true ∨ byte = 46 ∨ byte = 47 := by
  induction body generalizing text with
  | nil => simp [scanNumber] at found
  | cons byte body ih =>
      cases goes : numberGoes byte body with
      | true =>
          rw [scanNumber_goes goes, Option.map_eq_some_iff] at found
          obtain ⟨⟨inner, behind⟩, scanned, same⟩ := found
          obtain ⟨rfl, rfl⟩ := Prod.mk.inj same
          intro other member
          rcases List.mem_cons.mp member with rfl | inside
          · simp only [numberGoes, Bool.or_eq_true, beq_iff_eq, Bool.and_eq_true] at goes
            tauto
          · exact ih scanned other inside
      | false =>
          obtain ⟨rfl, -, -⟩ := scanNumber_stops goes found
          simp

theorem isWordByte_ne_newline {byte : UInt8} (inside : isWordByte byte = true) : byte ≠ 10 := by
  rintro rfl
  exact absurd inside (by decide)

theorem isWordByte_of_isalpha {byte : UInt8} (letter : isalpha byte = true) :
    isWordByte byte = true := by
  simp [isWordByte, isalnum, letter]

theorem exists_last_of_split {body text rest : Bytes} (split : body = text ++ rest)
    (nonempty : text ≠ []) (inside : ∀ byte ∈ text, byte ≠ 10) :
    ∃ front last, body = front ++ last :: rest ∧ last ≠ 10 := by
  refine ⟨text.dropLast, text.getLast nonempty, ?_, inside _ (List.getLast_mem nonempty)⟩
  rw [split, List.append_cons, List.dropLast_append_getLast nonempty]

inductive TokenForm : Bytes → Copytype → Bytes → Bytes → Prop
  | quoted {body text rest : Bytes} : scanQuoted body = .closed text rest →
      TokenForm (34 :: body) .cstr text rest
  | number {start text rest : Bytes} : start.head?.any isdigit = true →
      scanNumber start = some (text, rest) → TokenForm start .plainstr text rest
  | word {start text rest : Bytes} : start.head?.any isalpha = true →
      scanWord start = some (text, rest) → TokenForm start .plainstr text rest
  | punctuation {byte : UInt8} {rest : Bytes} : isPunctuation byte = true →
      TokenForm (byte :: rest) .plainstr [byte] rest
  | mark {second : UInt8} {rest : Bytes} : second = 47 ∨ second = 42 →
      TokenForm (47 :: second :: rest) .plainstr [47, second] rest

theorem plainToken_eq_token {start text rest : Bytes} {copytype : Copytype}
    {scanned : Option (Bytes × Bytes)} :
    plainToken start scanned = .token copytype text rest ↔
      copytype = .plainstr ∧ scanned = some (text, rest) := by
  rcases scanned with _ | ⟨inner, behind⟩
  all_goals simp [plainToken, eq_comm]

theorem tokenAt_form {start text rest : Bytes} {copytype : Copytype}
    (found : tokenAt start = .token copytype text rest) : TokenForm start copytype text rest := by
  cases start with
  | nil => simp [tokenAt] at found
  | cons byte body =>
      by_cases quote : byte = 34
      · subst quote
        cases scanned : scanQuoted body with
        | «open» => simp [tokenAt, scanned] at found
        | badEscape => simp [tokenAt, scanned] at found
        | closed inner behind =>
            simp only [tokenAt, ↓reduceIte, scanned, Gettoken.token.injEq] at found
            obtain ⟨rfl, rfl, rfl⟩ := found
            exact .quoted scanned
      by_cases digit : isdigit byte = true
      · simp only [tokenAt, quote, ↓reduceIte, digit, plainToken_eq_token] at found
        obtain ⟨rfl, scanned⟩ := found
        exact .number (by simpa using digit) scanned
      by_cases letter : isalpha byte = true
      · simp only [tokenAt, quote, ↓reduceIte, digit, Bool.false_eq_true, letter,
          plainToken_eq_token] at found
        obtain ⟨rfl, scanned⟩ := found
        exact .word (by simpa using letter) scanned
      by_cases punctuation : isPunctuation byte = true
      · simp only [tokenAt, quote, ↓reduceIte, digit, Bool.false_eq_true, letter, punctuation,
          Gettoken.token.injEq] at found
        obtain ⟨rfl, rfl, rfl⟩ := found
        exact .punctuation punctuation
      · simp only [tokenAt, quote, ↓reduceIte, digit, Bool.false_eq_true, letter,
          punctuation] at found
        split at found
        · next comment =>
            obtain ⟨rfl, second⟩ := comment
            cases body with
            | nil => simp at second
            | cons after body =>
                simp only [List.take_succ_cons, List.take_zero, List.drop_succ_cons,
                  List.drop_zero, Gettoken.token.injEq] at found
                obtain ⟨rfl, rfl, rfl⟩ := found
                exact .mark (by simpa using second)
        · cases found

theorem punctuation_cases {byte : UInt8} (punctuation : isPunctuation byte = true) :
    byte = 123 ∨ byte = 125 ∨ byte = 61 ∨ byte = 59 := by
  simpa [isPunctuation, or_assoc] using punctuation

theorem tokenAt_of_form {start text rest : Bytes} {copytype : Copytype}
    (form : TokenForm start copytype text rest) : tokenAt start = .token copytype text rest := by
  cases form with
  | quoted scanned => simp [tokenAt, scanned]
  | number first scanned =>
      cases start with
      | nil => simp at first
      | cons byte body =>
          simp only [List.head?_cons, Option.any_some] at first
          have notQuote : byte ≠ 34 := by
            rintro rfl
            exact absurd first (by decide)
          simp [tokenAt, notQuote, first, scanned, plainToken]
  | word first scanned =>
      cases start with
      | nil => simp at first
      | cons byte body =>
          simp only [List.head?_cons, Option.any_some] at first
          have notQuote : byte ≠ 34 := by
            rintro rfl
            exact absurd first (by decide)
          have notDigit : isdigit byte = false := by
            simp only [isalpha, isdigit, Bool.or_eq_true, Bool.and_eq_true, decide_eq_true_eq,
              Bool.and_eq_false_iff, decide_eq_false_iff_not, UInt8.le_iff_toNat_le] at first ⊢
            simp at first ⊢
            omega
          simp [tokenAt, notQuote, notDigit, first, scanned, plainToken]
  | punctuation first =>
      rcases punctuation_cases first with rfl | rfl | rfl | rfl
      all_goals simp [tokenAt, isdigit, isalpha, isPunctuation]
  | mark second =>
      rcases second with rfl | rfl
      all_goals simp [tokenAt, isdigit, isalpha, isPunctuation]

theorem TokenForm.append {start text rest : Bytes} {copytype : Copytype} (more : Bytes)
    (form : TokenForm start copytype text rest) :
    TokenForm (start ++ more) copytype text (rest ++ more) := by
  cases form with
  | quoted scanned => exact .quoted (scanQuoted_closed_append more scanned)
  | number first scanned =>
      refine .number ?_ (scanNumber_append more scanned)
      cases start with
      | nil => simp at first
      | cons byte body => simpa using first
  | word first scanned =>
      refine .word ?_ (scanWord_append more scanned)
      cases start with
      | nil => simp at first
      | cons byte body => simpa using first
  | punctuation first => exact .punctuation first
  | mark second => exact .mark second

theorem TokenForm.exists_last {start text rest : Bytes} {copytype : Copytype}
    (form : TokenForm start copytype text rest) :
    ∃ front last, start = front ++ last :: rest ∧ last ≠ 10 := by
  cases form with
  | quoted scanned =>
      obtain ⟨front, rfl⟩ := scanQuoted_split scanned
      exact ⟨34 :: front, 34, rfl, by decide⟩
  | number first scanned =>
      refine exists_last_of_split (scanNumber_split scanned) ?_ ?_
      · rintro rfl
        cases start with
        | nil => simp at first
        | cons byte body =>
            simp only [List.head?_cons, Option.any_some] at first
            rw [scanNumber_goes (by simp [numberGoes, first])] at scanned
            simp at scanned
      · intro byte member
        rintro rfl
        exact absurd (scanNumber_bytes scanned 10 member) (by decide)
  | word first scanned =>
      refine exists_last_of_split (scanWord_split scanned) ?_ ?_
      · rintro rfl
        cases start with
        | nil => simp at first
        | cons byte body =>
            simp only [List.head?_cons, Option.any_some] at first
            simp [scanWord, isWordByte_of_isalpha first] at scanned
      · intro byte member
        exact isWordByte_ne_newline (scanWord_bytes scanned byte member)
  | punctuation first =>
      refine ⟨[], _, rfl, ?_⟩
      rintro rfl
      exact absurd first (by decide)
  | mark second =>
      refine ⟨[47], _, rfl, ?_⟩
      rcases second with rfl | rfl
      all_goals decide

theorem tokenAt_incomplete {start iter : Bytes} (found : tokenAt start = .incomplete iter) :
    iter = start := by
  unfold tokenAt at found
  split at found
  · simpa using found.symm
  · unfold plainToken at found
    split_ifs at found
    all_goals split at found
    all_goals simp_all

theorem tokenAt_invalid {start iter message : Bytes}
    (found : tokenAt start = .invalid message iter) : iter = start := by
  unfold tokenAt at found
  split at found
  · cases found
  · unfold plainToken at found
    split_ifs at found
    all_goals first | split at found | skip
    all_goals simp_all

theorem tokenAt_invalid_append {start iter message : Bytes} (more : Bytes)
    (complete : Complete 10 start) (found : tokenAt start = .invalid message iter) :
    ∃ later, tokenAt (start ++ more) = .invalid message later := by
  cases start with
  | nil => simp [tokenAt] at found
  | cons byte body =>
      by_cases quote : byte = 34
      · subst quote
        cases scanned : scanQuoted body with
        | «open» => simp [tokenAt, scanned] at found
        | badEscape =>
            simp only [tokenAt, ↓reduceIte, scanned, Gettoken.invalid.injEq] at found
            simp [tokenAt, scanQuoted_badEscape_append more scanned, found.1]
        | closed inner behind => simp [tokenAt, scanned] at found
      have plain : ∀ scanned, plainToken (byte :: body) scanned ≠ .invalid message iter := by
        rintro (_ | ⟨inner, behind⟩)
        all_goals simp [plainToken]
      by_cases digit : isdigit byte = true
      · simp [tokenAt, quote, digit, plain] at found
      by_cases letter : isalpha byte = true
      · simp [tokenAt, quote, digit, letter, plain] at found
      by_cases punctuation : isPunctuation byte = true
      · simp [tokenAt, quote, digit, letter, punctuation] at found
      -- a slash is not the last byte of a complete text, so the byte behind it is known
      have same : byte = 47 → (body ++ more).head? = body.head? := by
        rintro rfl
        cases body with
        | nil => exact absurd (complete 47 rfl) (by decide)
        | cons after body => rfl
      simp only [tokenAt, quote, digit, letter, punctuation, Bool.false_eq_true,
        ↓reduceIte] at found
      split at found
      · cases found
      · next unmarked =>
          simp only [Gettoken.invalid.injEq] at found
          refine ⟨byte :: (body ++ more), ?_⟩
          simp only [tokenAt, List.cons_append, quote, digit, letter, punctuation,
            Bool.false_eq_true, ↓reduceIte, found.1]
          rw [if_neg]
          rintro ⟨slash, second⟩
          rw [same slash] at second
          exact unmarked ⟨slash, second⟩

/-! ### One step of the lexer -/

theorem dropWhile_append_of_ne_nil {front : Bytes} (more : Bytes)
    (starts : front.dropWhile isspace ≠ []) :
    (front ++ more).dropWhile isspace = front.dropWhile isspace ++ more := by
  rw [List.dropWhile_append, if_neg (by simpa [List.isEmpty_iff] using starts)]

theorem dropWhile_append_of_eq_nil {front : Bytes} (more : Bytes)
    (blank : front.dropWhile isspace = []) :
    (front ++ more).dropWhile isspace = more.dropWhile isspace := by
  rw [List.dropWhile_append, if_pos (by simp [blank])]

theorem dropWhile_complete {text : Bytes} (complete : Complete 10 text) :
    Complete 10 (text.dropWhile isspace) :=
  complete.suffix (List.dropWhile_suffix _)

theorem gettoken_form {text word iter : Bytes} {copytype : Copytype}
    (found : gettoken text = .token copytype word iter) :
    TokenForm (text.dropWhile isspace) copytype word iter :=
  tokenAt_form found

theorem gettoken_append {text word iter : Bytes} {copytype : Copytype} (more : Bytes)
    (found : gettoken text = .token copytype word iter) :
    gettoken (text ++ more) = .token copytype word (iter ++ more) := by
  have form := gettoken_form found
  have starts : text.dropWhile isspace ≠ [] := by
    obtain ⟨front, last, split, -⟩ := form.exists_last
    simp [split]
  rw [gettoken, dropWhile_append_of_ne_nil more starts]
  exact tokenAt_of_form (form.append more)

theorem gettoken_suffix {text word iter : Bytes} {copytype : Copytype}
    (found : gettoken text = .token copytype word iter) :
    iter <:+ text ∧ iter.length < text.length := by
  obtain ⟨front, last, split, -⟩ := (gettoken_form found).exists_last
  have inside : iter <:+ text.dropWhile isspace := ⟨front ++ [last], by simp [split]⟩
  refine ⟨inside.trans (List.dropWhile_suffix _), ?_⟩
  have shorter := (List.dropWhile_suffix (l := text) isspace).length_le
  rw [split] at shorter
  simp only [List.length_append, List.length_cons] at shorter
  omega

theorem gettoken_rest_ne_nil {text word iter : Bytes} {copytype : Copytype}
    (complete : Complete 10 text) (found : gettoken text = .token copytype word iter) :
    iter ≠ [] := by
  rintro rfl
  obtain ⟨front, last, split, notNewline⟩ := (gettoken_form found).exists_last
  have ends := dropWhile_complete complete last (by simp [split])
  exact notNewline ends

theorem gettoken_invalid_append {text iter message : Bytes} (more : Bytes)
    (complete : Complete 10 text) (found : gettoken text = .invalid message iter) :
    ∃ later, gettoken (text ++ more) = .invalid message later := by
  have starts : text.dropWhile isspace ≠ [] := by
    intro blank
    simp [gettoken, blank, tokenAt] at found
  rw [gettoken, dropWhile_append_of_ne_nil more starts]
  exact tokenAt_invalid_append more (dropWhile_complete complete) found

theorem gettoken_invalid {text iter message : Bytes}
    (found : gettoken text = .invalid message iter) : iter = text.dropWhile isspace :=
  tokenAt_invalid found

theorem gettoken_incomplete {text iter : Bytes} (found : gettoken text = .incomplete iter) :
    iter = text.dropWhile isspace :=
  tokenAt_incomplete found

theorem gettoken_incomplete_append {text iter : Bytes} (more : Bytes)
    (found : gettoken text = .incomplete iter) :
    gettoken (text ++ more) = gettoken (iter ++ more) := by
  obtain rfl := gettoken_incomplete found
  unfold gettoken
  by_cases blank : text.dropWhile isspace = []
  · rw [dropWhile_append_of_eq_nil more blank, blank, List.nil_append]
  · rw [dropWhile_append_of_ne_nil more blank,
      dropWhile_append_of_ne_nil more (by rwa [List.dropWhile_idempotent]),
      List.dropWhile_idempotent]

theorem afterComment_append {text rest : Bytes} (more : Bytes)
    (found : afterComment text = some rest) :
    afterComment (text ++ more) = some (rest ++ more) := by
  induction text using afterComment.induct with
  | case1 => simp [afterComment] at found
  | case2 behind =>
      simp only [afterComment, Option.some.injEq] at found
      simp [afterComment, found]
  | case3 byte text notEnd ih =>
      rw [afterComment] at found
      · cases text with
        | nil => simp [afterComment] at found
        | cons after text =>
            rw [List.cons_append, List.cons_append, afterComment]
            · exact ih found
            · rintro behind rfl same
              exact notEnd text rfl (by rw [(List.cons.inj same).1])
      · exact notEnd

theorem afterComment_suffix {text rest : Bytes} (found : afterComment text = some rest) :
    rest <:+ text ∧ rest.length < text.length := by
  induction text using afterComment.induct with
  | case1 => simp [afterComment] at found
  | case2 behind =>
      simp only [afterComment, Option.some.injEq] at found
      subst found
      exact ⟨⟨[42, 47], rfl⟩, by simp only [List.length_cons]; omega⟩
  | case3 byte text notEnd ih =>
      rw [afterComment] at found
      · have inside := ih found
        exact ⟨inside.1.trans (List.suffix_cons _ _), by simp only [List.length_cons]; omega⟩
      · exact notEnd

/-- The mark that ends a comment does not cross a newline. -/
theorem afterComment_none_append {text : Bytes} (more : Bytes) (complete : Complete 10 text)
    (missing : afterComment text = none) : afterComment (text ++ more) = afterComment more := by
  induction text using afterComment.induct with
  | case1 => rfl
  | case2 behind => simp [afterComment] at missing
  | case3 byte text notEnd ih =>
      rw [afterComment] at missing
      · cases text with
        | nil =>
            obtain rfl : byte = 10 := complete byte rfl
            rw [List.singleton_append, afterComment]
            simp
        | cons after text =>
            rw [List.cons_append, List.cons_append, afterComment]
            · exact ih (complete.suffix (List.suffix_cons _ _)) missing
            · rintro behind rfl same
              exact notEnd text rfl (by rw [(List.cons.inj same).1])
      · exact notEnd

theorem strchr_eq_some_iff {text found : Bytes} {byte : UInt8} :
    strchr text byte = some found ↔ text.dropWhile (· ≠ byte) = found ∧ found ≠ [] := by
  unfold strchr
  cases split : text.dropWhile (· ≠ byte) with
  | nil =>
      simp only [reduceCtorEq, false_iff, not_and, ne_eq, not_not]
      exact Eq.symm
  | cons first behind =>
      simp only [Option.some.injEq]
      constructor
      · rintro rfl
        exact ⟨rfl, List.cons_ne_nil _ _⟩
      · exact And.left

theorem strchr_suffix {text found : Bytes} {byte : UInt8} (here : strchr text byte = some found) :
    found <:+ text :=
  (strchr_eq_some_iff.mp here).1 ▸ List.dropWhile_suffix _

theorem strchr_append {text found : Bytes} {byte : UInt8} (more : Bytes)
    (here : strchr text byte = some found) : strchr (text ++ more) byte = some (found ++ more) := by
  obtain ⟨rfl, nonempty⟩ := strchr_eq_some_iff.mp here
  refine strchr_eq_some_iff.mpr ⟨?_, List.append_ne_nil_of_left_ne_nil nonempty more⟩
  rw [List.dropWhile_append, if_neg (by rwa [List.isEmpty_iff])]

theorem strchr_of_mem {text : Bytes} {byte : UInt8} (member : byte ∈ text) :
    ∃ found, strchr text byte = some found := by
  unfold strchr
  split
  · next blank =>
      have all := List.dropWhile_eq_nil_iff.mp blank byte member
      simp at all
  · exact ⟨_, rfl⟩

theorem newline_mem_of_complete {text : Bytes} (complete : Complete 10 text)
    (nonempty : text ≠ []) : 10 ∈ text := by
  have last := complete (text.getLast nonempty) (List.getLast?_eq_some_getLast nonempty)
  exact last ▸ List.getLast_mem nonempty

section

variable {comments : Copytype → Bool}

theorem lexStep_goes {text rest : Bytes} (token? : Option Token)
    (found : lexStep comments text = token?.elim (.skip rest) (.token · rest)) :
    ∃ copytype word iter, gettoken text = .token copytype word iter ∧
      ((token? = none ∧ comments copytype = true ∧ word = [47, 47] ∧
          ∃ line, strchr iter 10 = some line ∧ rest = line.drop 1) ∨
        (token? = none ∧ comments copytype = true ∧ word = [47, 42] ∧
          afterComment iter = some rest) ∨
        (token? = some ⟨copytype, word⟩ ∧ rest = iter ∧
          ¬(comments copytype = true ∧ (word = [47, 47] ∨ word = [47, 42])))) := by
  unfold lexStep at found
  cases scanned : gettoken text with
  | incomplete iter => cases token? <;> simp [scanned] at found
  | invalid message iter => cases token? <;> simp [scanned] at found
  | token copytype word iter =>
      refine ⟨copytype, word, iter, rfl, ?_⟩
      simp only [scanned] at found
      split_ifs at found with line block
      · cases ends : strchr iter 10 with
        | none => cases token? <;> simp [ends] at found
        | some newline =>
            cases token? with
            | none =>
                simp only [ends, Option.elim_none, LexStep.skip.injEq] at found
                exact .inl ⟨rfl, line.1, line.2, newline, rfl, found.symm⟩
            | some token => simp [ends] at found
      · cases ends : afterComment iter with
        | none => cases token? <;> simp [ends] at found
        | some behind =>
            cases token? with
            | none =>
                simp only [ends, Option.elim_none, LexStep.skip.injEq] at found
                exact .inr (.inl ⟨rfl, block.1, block.2, by rw [found]⟩)
            | some token => simp [ends] at found
      · cases token? with
        | none => simp at found
        | some token =>
            simp only [Option.elim_some, LexStep.token.injEq] at found
            refine .inr (.inr ⟨by rw [found.1], found.2.symm, ?_⟩)
            rintro ⟨starts, same | same⟩
            · exact line ⟨starts, same⟩
            · exact block ⟨starts, same⟩

theorem lexStep_goes_append {text rest : Bytes} (token? : Option Token) (more : Bytes)
    (found : lexStep comments text = token?.elim (.skip rest) (.token · rest)) :
    lexStep comments (text ++ more) = token?.elim (.skip (rest ++ more)) (.token · (rest ++ more)) := by
  obtain ⟨copytype, word, iter, scanned, shape⟩ := lexStep_goes token? found
  unfold lexStep
  rw [gettoken_append more scanned]
  rcases shape with ⟨rfl, starts, rfl, line, ends, rfl⟩ | ⟨rfl, starts, rfl, ends⟩ |
    ⟨rfl, rfl, unmarked⟩
  · have nonempty := (strchr_eq_some_iff.mp ends).2
    obtain ⟨first, behind, rfl⟩ := List.exists_cons_of_ne_nil nonempty
    simp [starts, strchr_append more ends]
  · simp [starts, afterComment_append more ends]
  · have notLine : ¬(comments copytype = true ∧ word = [47, 47]) :=
      fun line => unmarked ⟨line.1, .inl line.2⟩
    have notBlock : ¬(comments copytype = true ∧ word = [47, 42]) :=
      fun block => unmarked ⟨block.1, .inr block.2⟩
    simp only [notLine, notBlock, ↓reduceIte, Option.elim_some]

theorem lexStep_goes_suffix {text rest : Bytes} (token? : Option Token)
    (found : lexStep comments text = token?.elim (.skip rest) (.token · rest)) :
    rest <:+ text ∧ rest.length < text.length := by
  obtain ⟨copytype, word, iter, scanned, shape⟩ := lexStep_goes token? found
  have inside := gettoken_suffix scanned
  have trans : ∀ {behind : Bytes}, behind <:+ iter → behind <:+ text ∧ behind.length < text.length :=
    fun shorter => ⟨shorter.trans inside.1, by have := shorter.length_le; omega⟩
  rcases shape with ⟨rfl, starts, rfl, line, ends, rfl⟩ | ⟨rfl, starts, rfl, ends⟩ |
    ⟨rfl, rfl, unmarked⟩
  · exact trans ((List.drop_suffix 1 line).trans (strchr_suffix ends))
  · exact trans (afterComment_suffix ends).1
  · exact inside

theorem lexStep_invalid_append {text message : Bytes} (more : Bytes) (complete : Complete 10 text)
    (found : lexStep comments text = .stop (.invalid message)) :
    lexStep comments (text ++ more) = .stop (.invalid message) := by
  unfold lexStep at found
  cases scanned : gettoken text with
  | incomplete iter => simp [scanned] at found
  | invalid reason iter =>
      simp only [scanned, LexStep.stop.injEq, Ending.invalid.injEq] at found
      obtain ⟨later, stays⟩ := gettoken_invalid_append more complete scanned
      simp [lexStep, stays, found]
  | token copytype word iter =>
      simp only [scanned] at found
      split_ifs at found
      all_goals split at found
      all_goals simp at found

theorem lexStep_rest_append {text rest : Bytes} (more : Bytes) (plain : comments .plainstr = true)
    (complete : Complete 10 text) (found : lexStep comments text = .stop (.rest rest)) :
    lexStep comments (text ++ more) = lexStep comments (rest ++ more) ∧ Complete 10 rest := by
  unfold lexStep at found
  cases scanned : gettoken text with
  | incomplete iter =>
      simp only [scanned, LexStep.stop.injEq, Ending.rest.injEq] at found
      subst found
      refine ⟨by rw [lexStep, gettoken_incomplete_append more scanned, ← lexStep], ?_⟩
      rw [gettoken_incomplete scanned]
      exact dropWhile_complete complete
  | invalid message iter => simp [scanned] at found
  | token copytype word iter =>
      have nonempty := gettoken_rest_ne_nil complete scanned
      have ends := complete.suffix (gettoken_suffix scanned).1
      simp only [scanned] at found
      split_ifs at found with line block
      · obtain ⟨newline, here⟩ := strchr_of_mem (newline_mem_of_complete ends nonempty)
        simp [here] at found
      · cases behind : afterComment iter with
        | some found' => simp [behind] at found
        | none =>
            simp only [behind, LexStep.stop.injEq, Ending.rest.injEq] at found
            subst found
            have reread : gettoken (47 :: 42 :: (iter ++ more)) =
                .token .plainstr [47, 42] (iter ++ more) := tokenAt_of_form (.mark (.inr rfl))
            constructor
            · simp [lexStep, gettoken_append more scanned, reread, block.1, block.2, plain]
            · exact (ends.cons nonempty).cons (List.cons_ne_nil _ _)

/-! ### The tokens of a text -/

theorem readFuel_stable (fuel extra : Nat) (text : Bytes) (enough : text.length < fuel) :
    readFuel comments (fuel + extra) text = readFuel comments fuel text := by
  induction fuel generalizing text with
  | zero => omega
  | succ fuel ih =>
      rw [Nat.succ_add]
      simp only [readFuel]
      cases step : lexStep comments text with
      | stop ending => rfl
      | skip rest =>
          have shorter := (lexStep_goes_suffix none step).2
          exact ih rest (by omega)
      | token token rest =>
          have shorter := (lexStep_goes_suffix (some token) step).2
          simp only [ih rest (by omega)]

theorem readFuel_eq_readText {fuel : Nat} {text : Bytes} (enough : text.length < fuel) :
    readFuel comments fuel text = readText comments text := by
  obtain ⟨extra, rfl⟩ : ∃ extra, fuel = text.length + 1 + extra :=
    ⟨fuel - (text.length + 1), by omega⟩
  exact readFuel_stable (text.length + 1) extra text (by omega)

theorem readText_step (text : Bytes) :
    readText comments text =
      match lexStep comments text with
      | .stop ending => ⟨[], ending⟩
      | .skip rest => readText comments rest
      | .token token rest => (readText comments rest).push token := by
  unfold readText
  rw [readFuel]
  cases step : lexStep comments text with
  | stop ending => rfl
  | skip rest => exact readFuel_eq_readText (lexStep_goes_suffix none step).2
  | token token rest =>
      simp only
      rw [readFuel_eq_readText (lexStep_goes_suffix (some token) step).2, readText]

theorem readText_congr {text other : Bytes}
    (same : lexStep comments text = lexStep comments other) :
    readText comments text = readText comments other := by
  rw [readText_step text, readText_step other, same]

theorem lex_induction (comments : Copytype → Bool) {motive : Bytes → Prop}
    (stop : ∀ text ending, lexStep comments text = .stop ending → motive text)
    (skip : ∀ text rest, lexStep comments text = .skip rest → motive rest → motive text)
    (token : ∀ text token rest, lexStep comments text = .token token rest → motive rest →
      motive text) (text : Bytes) : motive text := by
  generalize sizeEq : text.length = size
  induction size using Nat.strong_induction_on generalizing text with
  | _ size ih =>
      cases step : lexStep comments text with
      | stop ending => exact stop text ending step
      | skip rest =>
          have shorter := (lexStep_goes_suffix none step).2
          exact skip text rest step (ih rest.length (by omega) rest rfl)
      | token found rest =>
          have shorter := (lexStep_goes_suffix (some found) step).2
          exact token text found rest step (ih rest.length (by omega) rest rfl)

def Reading.prepend (tokens : List Token) (reading : Reading) : Reading :=
  { reading with tokens := tokens ++ reading.tokens }

/-- Reading on behind whole lines: what was found stays found. -/
theorem readText_append (plain : comments .plainstr = true) (more : Bytes) (text : Bytes) :
    Complete 10 text →
      readText comments (text ++ more) =
        match (readText comments text).ending with
        | .invalid message => ⟨(readText comments text).tokens, .invalid message⟩
        | .rest rest =>
            (readText comments (rest ++ more)).prepend (readText comments text).tokens := by
  induction text using lex_induction comments with
  | stop text ending step =>
      intro complete
      rw [readText_step text, step]
      cases ending with
      | invalid message =>
          rw [readText_step, lexStep_invalid_append more complete step]
      | rest rest => exact readText_congr (lexStep_rest_append more plain complete step).1
  | skip text rest step ih =>
      intro complete
      have ends := complete.suffix (lexStep_goes_suffix none step).1
      have goes := lexStep_goes_append none more step
      rw [readText_step (text ++ more), goes, readText_step text, step]
      exact ih ends
  | token text token rest step ih =>
      intro complete
      have ends := complete.suffix (lexStep_goes_suffix (some token) step).1
      have goes := lexStep_goes_append (some token) more step
      rw [readText_step (text ++ more), goes, readText_step text, step]
      simp only [Option.elim_some, Reading.push, ih ends]
      cases (readText comments rest).ending <;> rfl

end

end ProxySet
