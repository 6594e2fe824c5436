import ProxySet.Redsocks.ParserLayout

/-!
`gettoken` as it walks through the buffer: a pass that measures the token, an area of that size
and a pass that fills it.  A pointer is the part of the memory from there on; a read behind the
memory or a store behind the area gives `none`.
-/

namespace ProxySet

structure TextBuffer where
  text : Bytes
  behind : Bytes
  nulFree : 0 ∉ text

def TextBuffer.memory (buffer : TextBuffer) : Bytes :=
  buffer.text ++ 0 :: buffer.behind

/-! ### The first pass -/

inductive Measured where
  | null
  | error (message : Bytes)
  | token (copytype : Copytype) (len : Nat)
  deriving DecidableEq

def measureQuoted (len : Nat) : Bytes → Option Measured
  | [] => none
  | byte :: rest =>
      if byte = 0 then some .null
      else if byte = 34 then some (.token .cstr len)
      else if byte = 92 then
        match rest with
        | [] => none
        | escaped :: behind =>
            if escaped = 0 then some .null
            else if unescape escaped = 0 then
              some (.error (ascii "unknown escaped char after \\"))
            else measureQuoted (len + 1) behind
      else measureQuoted (len + 1) rest

def measureNumber (len : Nat) : Bytes → Option Measured
  | [] => none
  | byte :: rest =>
      if byte = 0 then some .null
      else if isdigit byte || byte == 46 then measureNumber (len + 1) rest
      else if byte = 47 then
        match rest with
        | [] => none
        | after :: _ =>
            if isdigit after then measureNumber (len + 1) rest
            else if after = 47 ∨ after = 42 then some (.token .plainstr len)
            else some .null
      else some (.token .plainstr len)

def measureWord (len : Nat) : Bytes → Option Measured
  | [] => none
  | byte :: rest =>
      if byte = 0 then some .null
      else if isWordByte byte then measureWord (len + 1) rest
      else some (.token .plainstr len)

def measure (start : Bytes) : Option Measured :=
  match start with
  | [] => none
  | byte :: rest =>
      if byte = 34 then measureQuoted 0 rest
      else if isdigit byte then measureNumber 0 start
      else if isalpha byte then measureWord 0 start
      else if isPunctuation byte then some (.token .plainstr 1)
      else if byte = 47 then
        rest.head?.map fun second =>
          if second = 47 ∨ second = 42 then .token .plainstr 2
          else .error (ascii "unexpected char")
      else some (.error (ascii "unexpected char"))

/-! ### The second pass -/

/-- `*p++ = byte` in an area of `size` bytes, of which those in `stored` are written. -/
def storeByte (size : Nat) (stored : Bytes) (byte : UInt8) : Option Bytes :=
  if stored.length < size then some (stored ++ [byte]) else none

def copyQuoted (size : Nat) (stored : Bytes) : Bytes → Option (Bytes × Bytes)
  | [] => none
  | byte :: rest =>
      if byte = 34 then some (stored, rest)
      else if byte = 92 then
        match rest with
        | [] => none
        | escaped :: behind =>
            (storeByte size stored (unescape escaped)).bind fun stored =>
              copyQuoted size stored behind
      else (storeByte size stored byte).bind fun stored => copyQuoted size stored rest

def copyPlain (len : Nat) (start : Bytes) : Option (Bytes × Bytes) :=
  if len ≤ start.length then some (start.take len, start.drop len) else none

/-- NULL with the messages of `parser_error`, or the measured length and the area it is in; and
where `*iter` is left. -/
inductive Taken where
  | null (errors : List Bytes) (iter : Bytes)
  | token (len : Nat) (ret : Bytes) (iter : Bytes)
  deriving DecidableEq

def fill (copytype : Copytype) (len : Nat) (start : Bytes) : Option Taken := do
  let copied ←
    match copytype with
    | .cstr => copyQuoted (len + 1) [] start.tail
    | .plainstr => copyPlain len start
  let ret ← storeByte (len + 1) copied.1 0
  return .token len ret copied.2

def gettokenAt (malloc : Bool) (iter : Bytes) : Option Taken := do
  let start ← advance (fun byte => byte != 0 && isspace byte) iter
  let first ← start.head?
  if first = 0 then return .null [] start
  match ← measure start with
  | .null => return .null [] start
  | .error message => return .null [message] start
  | .token copytype len =>
      if malloc then fill copytype len start
      else return .null [ascii "malloc failed"] start

/-! ### What the passes find -/

section

variable {text body rest : Bytes} {copytype : Copytype}

@[simp] theorem measureQuoted_nul (len : Nat) (behind : Bytes) :
    measureQuoted len (0 :: behind) = some .null := by
  rw [measureQuoted.eq_def]
  rfl

@[simp] theorem measureQuoted_quote (len : Nat) (behind : Bytes) :
    measureQuoted len (34 :: behind) = some (.token .cstr len) := by
  rw [measureQuoted.eq_def]
  rfl

@[simp] theorem measureQuoted_escape (len : Nat) (escaped : UInt8) (behind : Bytes) :
    measureQuoted len (92 :: escaped :: behind) =
      if escaped = 0 then some .null
      else if unescape escaped = 0 then some (.error (ascii "unknown escaped char after \\"))
      else measureQuoted (len + 1) behind := by
  rw [measureQuoted.eq_def]
  rfl

theorem measureQuoted_plain (len : Nat) {byte : UInt8} (behind : Bytes) (nonzero : byte ≠ 0)
    (notQuote : byte ≠ 34) (notEscape : byte ≠ 92) :
    measureQuoted len (byte :: behind) = measureQuoted (len + 1) behind := by
  rw [measureQuoted.eq_def]
  simp only [nonzero, notQuote, notEscape, ↓reduceIte]

def Quoted.measured (len : Nat) : Quoted → Measured
  | .open => .null
  | .badEscape => .error (ascii "unknown escaped char after \\")
  | .closed text _ => .token .cstr (len + text.length)

def plainMeasured (len : Nat) : Option (Bytes × Bytes) → Measured
  | none => .null
  | some (text, _) => .token .plainstr (len + text.length)

theorem measured_push (len : Nat) (byte : UInt8) (quoted : Quoted) :
    (quoted.push byte).measured len = quoted.measured (len + 1) := by
  cases quoted with
  | «open» => rfl
  | badEscape => rfl
  | closed text rest => simp [Quoted.push, Quoted.measured, Nat.add_assoc, Nat.add_comm 1]

theorem plainMeasured_push (len : Nat) (byte : UInt8) (scanned : Option (Bytes × Bytes)) :
    plainMeasured len (scanned.map fun found => (byte :: found.1, found.2)) =
      plainMeasured (len + 1) scanned := by
  cases scanned with
  | none => rfl
  | some found => simp [plainMeasured, Nat.add_assoc, Nat.add_comm 1]

theorem measureQuoted_scan (nulFree : 0 ∉ body) (len : Nat) (behind : Bytes) :
    measureQuoted len (body ++ 0 :: behind) = some ((scanQuoted body).measured len) := by
  induction body using scanQuoted.induct generalizing len with
  | case1 => simp [scanQuoted, Quoted.measured]
  | case2 body => simp [Quoted.measured]
  | case3 => simp [Quoted.measured]
  | case4 escaped body bad _ =>
      simp only [List.mem_cons, not_or] at nulFree
      simp [bad, Ne.symm nulFree.2.1, Quoted.measured]
  | case5 escaped body good _ ih =>
      simp only [List.mem_cons, not_or] at nulFree
      rw [scanQuoted_escape, if_neg good, measured_push, List.cons_append, List.cons_append,
        measureQuoted_escape, if_neg (Ne.symm nulFree.2.1), if_neg good]
      exact ih nulFree.2.2 (len + 1)
  | case6 byte body notQuote notEscape ih =>
      simp only [List.mem_cons, not_or] at nulFree
      rw [scanQuoted_plain _ notQuote notEscape, measured_push, List.cons_append,
        measureQuoted_plain len _ (Ne.symm nulFree.1) notQuote notEscape]
      exact ih nulFree.2 (len + 1)

theorem measureWord_scan (nulFree : 0 ∉ body) (len : Nat) (behind : Bytes) :
    measureWord len (body ++ 0 :: behind) = some (plainMeasured len (scanWord body)) := by
  induction body generalizing len with
  | nil => simp [measureWord, scanWord, plainMeasured]
  | cons byte body ih =>
      simp only [List.mem_cons, not_or] at nulFree
      simp only [List.cons_append, measureWord, scanWord, Ne.symm nulFree.1, ↓reduceIte]
      by_cases inside : isWordByte byte = true
      · rw [if_pos inside, if_pos inside, plainMeasured_push, ih nulFree.2]
      · rw [if_neg inside, if_neg inside]
        rfl

theorem measureNumber_cons (len : Nat) (byte : UInt8) (rest : Bytes) :
    measureNumber len (byte :: rest) =
      if byte = 0 then some .null
      else if isdigit byte || byte == 46 then measureNumber (len + 1) rest
      else if byte = 47 then
        rest.head?.bind fun after =>
          if isdigit after then measureNumber (len + 1) rest
          else if after = 47 ∨ after = 42 then some (.token .plainstr len)
          else some .null
      else some (.token .plainstr len) := by
  rw [measureNumber.eq_def]
  cases rest with
  | nil => rfl
  | cons after behind => rfl

theorem measureNumber_scan (nulFree : 0 ∉ body) (len : Nat) (behind : Bytes) :
    measureNumber len (body ++ 0 :: behind) = some (plainMeasured len (scanNumber body)) := by
  induction body generalizing len with
  | nil => simp [measureNumber, scanNumber, plainMeasured]
  | cons byte body ih =>
      simp only [List.mem_cons, not_or] at nulFree
      rw [List.cons_append, measureNumber_cons, if_neg (Ne.symm nulFree.1)]
      by_cases digit : (isdigit byte || byte == 46) = true
      · have goes : numberGoes byte body = true := by simp [numberGoes, digit]
        rw [if_pos digit, ih nulFree.2, scanNumber_goes goes, plainMeasured_push]
      · rw [if_neg digit]
        by_cases slash : byte = 47
        · subst slash
          rw [if_pos rfl]
          cases body with
          | nil => simp [scanNumber, isdigit, plainMeasured]
          | cons after body =>
              rw [List.cons_append, List.head?_cons, Option.bind_some]
              by_cases goes : isdigit after = true
              · have number : numberGoes 47 (after :: body) = true := by simp [numberGoes, goes]
                rw [if_pos goes, scanNumber_goes number, plainMeasured_push]
                exact ih nulFree.2 (len + 1)
              · have stops : numberGoes 47 (after :: body) = false := by
                  rw [Bool.not_eq_true] at goes
                  rw [numberGoes, List.head?_cons, Option.any_some, goes]
                  rfl
                rw [if_neg goes, scanNumber_step, stops]
                by_cases comment : after = 47 ∨ after = 42
                · simp [comment, plainMeasured]
                · simp [comment, plainMeasured]
        · have stops : numberGoes byte body = false := by
            simpa [numberGoes, slash] using digit
          rw [if_neg slash, scanNumber_step, stops]
          simp [slash, plainMeasured]

@[simp] theorem copyQuoted_quote (size : Nat) (stored rest : Bytes) :
    copyQuoted size stored (34 :: rest) = some (stored, rest) := by
  rw [copyQuoted.eq_def]
  rfl

theorem copyQuoted_escape {size : Nat} {stored : Bytes} (room : stored.length < size)
    (escaped : UInt8) (behind : Bytes) :
    copyQuoted size stored (92 :: escaped :: behind) =
      copyQuoted size (stored ++ [unescape escaped]) behind := by
  rw [copyQuoted.eq_def]
  simp only [storeByte, room, ↓reduceIte, Option.bind_some]
  rfl

theorem copyQuoted_plain {size : Nat} {stored : Bytes} (room : stored.length < size)
    {byte : UInt8} (rest : Bytes) (notQuote : byte ≠ 34) (notEscape : byte ≠ 92) :
    copyQuoted size stored (byte :: rest) = copyQuoted size (stored ++ [byte]) rest := by
  rw [copyQuoted.eq_def]
  simp only [notQuote, notEscape, storeByte, room, ↓reduceIte, Option.bind_some]

theorem copyQuoted_scan (closed : scanQuoted body = .closed text rest) (behind : Bytes)
    {size : Nat} {stored : Bytes} (fits : stored.length + text.length ≤ size) :
    copyQuoted size stored (body ++ 0 :: behind) = some (stored ++ text, rest ++ 0 :: behind) := by
  induction body using scanQuoted.induct generalizing stored text with
  | case1 => simp [scanQuoted] at closed
  | case2 body =>
      obtain ⟨rfl, rfl⟩ := Quoted.closed.inj ((scanQuoted_quote body).symm.trans closed)
      simp
  | case3 => simp at closed
  | case4 escaped body bad _ => simp [bad] at closed
  | case5 escaped body good _ ih =>
      simp only [scanQuoted_escape, good, ↓reduceIte, Quoted.push_eq_closed] at closed
      obtain ⟨inner, found, rfl⟩ := closed
      rw [List.length_cons] at fits
      have later : (stored ++ [unescape escaped]).length + inner.length ≤ size := by
        rw [List.length_append, List.length_singleton]
        omega
      rw [List.cons_append, List.cons_append, copyQuoted_escape (by omega), ih found later,
        List.append_assoc, List.singleton_append]
  | case6 byte body notQuote notEscape ih =>
      rw [scanQuoted_plain body notQuote notEscape, Quoted.push_eq_closed] at closed
      obtain ⟨inner, found, rfl⟩ := closed
      rw [List.length_cons] at fits
      have later : (stored ++ [byte]).length + inner.length ≤ size := by
        rw [List.length_append, List.length_singleton]
        omega
      rw [List.cons_append, copyQuoted_plain (by omega) _ notQuote notEscape, ih found later,
        List.append_assoc, List.singleton_append]

/-! ### Both passes -/

def Gettoken.measured : Gettoken → Measured
  | .incomplete _ => .null
  | .invalid message _ => .error message
  | .token copytype text _ => .token copytype text.length

theorem measure_tokenAt {start : Bytes} (nulFree : 0 ∉ start) (nonempty : start ≠ [])
    (behind : Bytes) : measure (start ++ 0 :: behind) = some (tokenAt start).measured := by
  obtain ⟨byte, body, rfl⟩ := List.exists_cons_of_ne_nil nonempty
  have tailFree : 0 ∉ body := fun member => nulFree (List.mem_cons_of_mem _ member)
  have plain (scanned : Option (Bytes × Bytes)) :
      (plainToken (byte :: body) scanned).measured = plainMeasured 0 scanned := by
    cases scanned with
    | none => rfl
    | some found => simp [plainToken, Gettoken.measured, plainMeasured]
  simp only [List.cons_append, measure, tokenAt]
  by_cases quote : byte = 34
  · rw [if_pos quote, if_pos quote, measureQuoted_scan tailFree]
    cases scanQuoted body with
    | «open» => rfl
    | badEscape => rfl
    | closed text rest => simp [Quoted.measured, Gettoken.measured]
  · rw [if_neg quote, if_neg quote]
    by_cases digit : isdigit byte = true
    · rw [if_pos digit, if_pos digit, plain]
      exact measureNumber_scan nulFree 0 behind
    · rw [if_neg digit, if_neg digit]
      by_cases letter : isalpha byte = true
      · rw [if_pos letter, if_pos letter, plain]
        exact measureWord_scan nulFree 0 behind
      · rw [if_neg letter, if_neg letter]
        by_cases punctuation : isPunctuation byte = true
        · rw [if_pos punctuation, if_pos punctuation]
          rfl
        · rw [if_neg punctuation, if_neg punctuation]
          by_cases slash : byte = 47
          · rw [if_pos slash]
            cases body with
            | nil => simp [slash, Gettoken.measured]
            | cons second body =>
                by_cases comment : second = 47 ∨ second = 42
                · simp [slash, comment, Gettoken.measured]
                · simp [slash, comment, Gettoken.measured]
          · rw [if_neg slash, if_neg fun both => slash both.1]
            rfl

theorem fill_plain (text rest : Bytes) :
    fill .plainstr text.length (text ++ rest) = some (.token text.length (text ++ [0]) rest) := by
  simp [fill, copyPlain, storeByte]

/-- The second pass stores as many bytes as the first has counted. -/
theorem fill_tokenAt {start : Bytes} (found : tokenAt start = .token copytype text rest)
    (behind : Bytes) :
    fill copytype text.length (start ++ 0 :: behind) =
      some (.token text.length (text ++ [0]) (rest ++ 0 :: behind)) := by
  cases tokenAt_form found with
  | quoted closed =>
      have copied := copyQuoted_scan closed behind
        (show ([] : Bytes).length + text.length ≤ text.length + 1 by simp)
      rw [List.nil_append] at copied
      simp [fill, copied, storeByte]
  | number _ scanned =>
      rw [scanNumber_split scanned, List.append_assoc]
      exact fill_plain text _
  | word _ scanned =>
      rw [scanWord_split scanned, List.append_assoc]
      exact fill_plain text _
  | punctuation _ => exact fill_plain _ _
  | mark _ => exact fill_plain _ _

end

def Gettoken.taken (malloc : Bool) (start behind : Bytes) : Gettoken → Taken
  | .incomplete _ => .null [] (start ++ 0 :: behind)
  | .invalid message _ => .null [message] (start ++ 0 :: behind)
  | .token _ text rest =>
      if malloc then .token text.length (text ++ [0]) (rest ++ 0 :: behind)
      else .null [ascii "malloc failed"] (start ++ 0 :: behind)

theorem gettokenAt_memory (buffer : TextBuffer) (malloc : Bool) :
    gettokenAt malloc buffer.memory = some ((gettoken buffer.text).taken malloc
      (buffer.text.dropWhile isspace) buffer.behind) := by
  have skipped : advance (fun byte => byte != 0 && isspace byte) buffer.memory =
      some (buffer.text.dropWhile isspace ++ 0 :: buffer.behind) := by
    have same : (fun byte => byte != 0 && isspace byte) = isspace := by
      funext byte
      have checked := forall_byte (fun byte => (byte != 0 && isspace byte) == isspace byte)
        (by decide +kernel) byte
      exact eq_of_beq checked
    rw [same]
    exact advance_terminated _ (by decide)
  have nulFree : 0 ∉ buffer.text.dropWhile isspace := fun member =>
    buffer.nulFree ((List.dropWhile_sublist _).mem member)
  rw [gettokenAt, skipped, gettoken]
  cases start : buffer.text.dropWhile isspace with
  | nil => rfl
  | cons byte body =>
      have nonzero : byte ≠ 0 := by
        rintro rfl
        exact nulFree (start ▸ List.mem_cons_self)
      have measured := measure_tokenAt (start ▸ nulFree) (List.cons_ne_nil byte body) buffer.behind
      simp only [Option.bind_eq_bind, Option.bind_some, List.cons_append, List.head?_cons, nonzero,
        ↓reduceIte] at measured ⊢
      rw [measured]
      cases found : tokenAt (byte :: body) with
      | incomplete iter => rfl
      | invalid message iter => rfl
      | token copytype text rest =>
          have filled := fill_tokenAt found buffer.behind
          cases malloc with
          | false => rfl
          | true => exact filled

/-! ### The text of a token -/

/-- A token, the text it is cut out of and the text behind: `Spelling` and the marks of comments. -/
inductive TokenText : Token → Bytes → Bytes → Prop
  | spelled {token : Token} {raw rest : Bytes} : Spelling token raw rest → TokenText token raw rest
  | mark {second : UInt8} {rest : Bytes} : second = 47 ∨ second = 42 →
      TokenText ⟨.plainstr, [47, second]⟩ [47, second] rest

section

variable {token : Token} {start body text raw rest : Bytes} {copytype : Copytype}

theorem scanQuoted_raw (closed : scanQuoted body = .closed text rest) :
    ∃ raw, Escaped raw text ∧ body = raw ++ 34 :: rest := by
  induction body using scanQuoted.induct generalizing text with
  | case1 => simp [scanQuoted] at closed
  | case2 body =>
      obtain ⟨rfl, rfl⟩ := Quoted.closed.inj ((scanQuoted_quote body).symm.trans closed)
      exact ⟨[], .nil, rfl⟩
  | case3 => simp at closed
  | case4 escaped body bad _ => simp [bad] at closed
  | case5 escaped body good _ ih =>
      simp only [scanQuoted_escape, good, ↓reduceIte, Quoted.push_eq_closed] at closed
      obtain ⟨inner, found, rfl⟩ := closed
      obtain ⟨raw, isEscaped, rfl⟩ := ih found
      exact ⟨92 :: escaped :: raw, .escape good isEscaped, rfl⟩
  | case6 byte body notQuote notEscape ih =>
      rw [scanQuoted_plain body notQuote notEscape, Quoted.push_eq_closed] at closed
      obtain ⟨inner, found, rfl⟩ := closed
      obtain ⟨raw, isEscaped, rfl⟩ := ih found
      exact ⟨byte :: raw, .plain notQuote notEscape isEscaped, rfl⟩

theorem scanWord_ends (found : scanWord body = some (text, rest)) :
    (∀ byte ∈ text, isWordByte byte = true) ∧ WordEnds rest := by
  induction body generalizing text with
  | nil => simp [scanWord] at found
  | cons byte body ih =>
      by_cases inside : isWordByte byte = true
      · simp only [scanWord, inside, ↓reduceIte, Option.map_eq_some_iff, Prod.mk.injEq] at found
        obtain ⟨⟨inner, behind⟩, scanned, rfl, rfl⟩ := found
        obtain ⟨all, ends⟩ := ih scanned
        exact ⟨List.forall_mem_cons.mpr ⟨inside, all⟩, ends⟩
      · simp only [scanWord, inside, Bool.false_eq_true, ↓reduceIte, Option.some.injEq,
          Prod.mk.injEq] at found
        obtain ⟨rfl, rfl⟩ := found
        exact ⟨List.forall_mem_nil _, byte, body, rfl, Bool.eq_false_iff.mpr inside⟩

theorem scanNumber_ends (found : scanNumber body = some (text, rest)) :
    isNumberText text = true ∧ NumberEnds rest := by
  induction body generalizing text with
  | nil => simp [scanNumber] at found
  | cons byte body ih =>
      cases goes : numberGoes byte body with
      | true =>
          rw [scanNumber_goes goes, Option.map_eq_some_iff] at found
          obtain ⟨⟨inner, behind⟩, scanned, same⟩ := found
          obtain ⟨rfl, rfl⟩ := Prod.mk.inj same
          obtain ⟨number, ends⟩ := ih scanned
          refine ⟨?_, ends⟩
          have split := scanNumber_split scanned
          subst split
          rw [isNumberText, number, Bool.and_true]
          cases inner with
          | cons after inner => exact goes
          | nil =>
              obtain ⟨after, later, rfl, notDigit, -, -⟩ := ends
              simpa [numberGoes, notDigit] using goes
      | false =>
          obtain ⟨rfl, rfl, comment⟩ := scanNumber_stops goes found
          simp only [numberGoes, Bool.or_eq_false_iff, beq_eq_false_iff_ne] at goes
          exact ⟨rfl, byte, body, rfl, goes.1.1, goes.1.2, comment⟩

theorem TokenForm.cut (form : TokenForm start copytype text rest) :
    ∃ raw, TokenText ⟨copytype, text⟩ raw rest ∧ start = raw ++ rest := by
  cases form with
  | quoted closed =>
      obtain ⟨raw, isEscaped, rfl⟩ := scanQuoted_raw closed
      exact ⟨34 :: raw ++ [34], .spelled (.quoted isEscaped), by simp⟩
  | number first scanned =>
      have split := scanNumber_split scanned
      obtain ⟨number, ends⟩ := scanNumber_ends scanned
      refine ⟨text, .spelled (.number ?_ number ends), split⟩
      cases text with
      | cons byte text => simpa [split] using first
      | nil =>
          obtain ⟨byte, behind, same, notDigit, -⟩ := ends
          simp [split, same, notDigit] at first
  | word first scanned =>
      have split := scanWord_split scanned
      obtain ⟨inside, ends⟩ := scanWord_ends scanned
      refine ⟨text, .spelled (.word ?_ inside ends), split⟩
      cases text with
      | cons byte text => simpa [split] using first
      | nil =>
          obtain ⟨byte, behind, same, outside⟩ := ends
          simp [split, same] at first
          simp [isWordByte, isalnum, first] at outside
  | punctuation first => exact ⟨_, .spelled (.punctuation first), rfl⟩
  | mark second => exact ⟨_, .mark second, rfl⟩

theorem TokenText.form (cut : TokenText token raw rest) :
    TokenForm (raw ++ rest) token.copytype token.text rest := by
  cases cut with
  | spelled spelling => exact spelling.form
  | mark second => exact .mark second

theorem TokenText.nonempty (cut : TokenText token raw rest) : raw ≠ [] := by
  cases cut with
  | mark => exact List.cons_ne_nil _ _
  | spelled spelling =>
      cases spelling with
      | quoted => exact List.cons_ne_nil _ _
      | punctuation => exact List.cons_ne_nil _ _
      | word first =>
          rintro rfl
          simp at first
      | number first =>
          rintro rfl
          simp at first

end

/-! ### Escaping -/

def escapeByte (byte : UInt8) : Bytes :=
  if byte = 10 then ascii "\\n"
  else if byte = 9 then ascii "\\t"
  else if byte = 13 then ascii "\\r"
  else if byte = 92 ∨ byte = 39 ∨ byte = 34 then [92, byte]
  else [byte]

def escape (text : Bytes) : Bytes :=
  text.flatMap escapeByte

theorem escape_escaped (text : Bytes) : Escaped (escape text) text := by
  induction text with
  | nil => exact .nil
  | cons byte text ih =>
      rw [escape, List.flatMap_cons, ← escape]
      by_cases newline : byte = 10
      · subst newline
        exact .escape (show unescape 110 ≠ 0 by decide) ih
      · by_cases tab : byte = 9
        · subst tab
          exact .escape (show unescape 116 ≠ 0 by decide) ih
        · by_cases carriage : byte = 13
          · subst carriage
            exact .escape (show unescape 114 ≠ 0 by decide) ih
          · by_cases marked : byte = 92 ∨ byte = 39 ∨ byte = 34
            · rw [escapeByte, if_neg newline, if_neg tab, if_neg carriage, if_pos marked]
              rcases marked with rfl | rfl | rfl
              · exact .escape (show unescape 92 ≠ 0 by decide) ih
              · exact .escape (show unescape 39 ≠ 0 by decide) ih
              · exact .escape (show unescape 34 ≠ 0 by decide) ih
            · rw [escapeByte, if_neg newline, if_neg tab, if_neg carriage, if_neg marked]
              simp only [not_or] at marked
              exact .plain marked.2.2 marked.1 ih

theorem escape_nulFree {text : Bytes} (nulFree : 0 ∉ text) : 0 ∉ escape text := by
  intro member
  obtain ⟨byte, inside, zero⟩ := List.mem_flatMap.mp member
  have checked := forall_byte (fun byte => byte == 0 || !(escapeByte byte).contains 0)
    (by decide +kernel) byte
  have nonzero : byte ≠ 0 := by
    rintro rfl
    exact nulFree inside
  simp [nonzero, zero] at checked

theorem gettoken_escape (text rest : Bytes) :
    gettoken (34 :: escape text ++ 34 :: rest) = .token .cstr text rest :=
  gettoken_of_form (.quoted (scanQuoted_escaped (escape_escaped text) rest))

/-- A token is stored with the length of the first pass and the cursor is behind its text; at NULL
the cursor is at the start of what is no token.  Escaped text in quotes gives the text. -/
theorem gettoken_passes_agree (malloc : Bool) :
    (∀ buffer : TextBuffer, ∃ taken, gettokenAt malloc buffer.memory = some taken ∧
      match taken with
      | .token len ret iter =>
          ∃ copytype stored raw rest,
            ret = stored ++ [0] ∧ stored.length = len ∧
            TokenText ⟨copytype, stored⟩ raw rest ∧ raw ≠ [] ∧
            buffer.text.dropWhile isspace = raw ++ rest ∧ iter = rest ++ 0 :: buffer.behind
      | .null _ iter =>
          iter = buffer.text.dropWhile isspace ++ 0 :: buffer.behind ∧
            (malloc = true → ∀ token raw rest, TokenText token raw rest →
              buffer.text.dropWhile isspace ≠ raw ++ rest)) ∧
    ∀ text rest behind : Bytes, 0 ∉ text → 0 ∉ rest →
      gettokenAt true (34 :: escape text ++ 34 :: rest ++ 0 :: behind) =
        some (.token text.length (text ++ [0]) (rest ++ 0 :: behind)) := by
  constructor
  · intro buffer
    have noToken (other : ∀ copytype text rest, gettoken buffer.text ≠ .token copytype text rest)
        (token : Token) (raw rest : Bytes) (cut : TokenText token raw rest) :
        buffer.text.dropWhile isspace ≠ raw ++ rest := by
      intro split
      have same := tokenAt_of_form cut.form
      rw [← split] at same
      exact other _ _ _ same
    refine ⟨_, gettokenAt_memory buffer malloc, ?_⟩
    cases found : gettoken buffer.text with
    | incomplete iter => exact ⟨rfl, fun _ => noToken (by simp [found])⟩
    | invalid message iter => exact ⟨rfl, fun _ => noToken (by simp [found])⟩
    | token copytype text rest =>
        cases malloc with
        | false => exact ⟨rfl, fun allocated => absurd allocated Bool.false_ne_true⟩
        | true =>
            obtain ⟨raw, cut, split⟩ := (tokenAt_form found).cut
            exact ⟨copytype, text, raw, rest, rfl, rfl, cut, cut.nonempty, split, rfl⟩
  · intro text rest behind textFree restFree
    have nulFree : 0 ∉ 34 :: escape text ++ 34 :: rest := by
      simp [escape_nulFree textFree, restFree]
    have memory := gettokenAt_memory ⟨_, behind, nulFree⟩ true
    rw [gettoken_escape text rest] at memory
    exact memory

theorem quote_and_backslash_given_back :
    0 ∉ ascii "a\"\\b" ∧ 0 ∉ ascii ";" ∧
      gettokenAt true (ascii "\"a\\\"\\\\b\";" ++ [0]) =
        some (.token 4 (ascii "a\"\\b" ++ [0]) (ascii ";" ++ [0])) :=
  ⟨by decide, by decide,
    (gettoken_passes_agree true).2 (ascii "a\"\\b") (ascii ";") [] (by decide) (by decide)⟩

end ProxySet
