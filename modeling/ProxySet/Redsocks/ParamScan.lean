import ProxySet.Redsocks.DigestScan

/-!
`extract_param` with the pointers of its two tokens, the parameters that its calls return one
after the other, and the lists of parameters that they give back.
-/

namespace ProxySet

/-! ### Tokens -/

/-- `param_token`: two pointers into a block. -/
structure ParamToken where
  b : Bytes
  e : Bytes

namespace ParamToken

def text (token : ParamToken) : Bytes :=
  between token.b token.e

def Ordered (token : ParamToken) : Prop :=
  token.e <:+ token.b

def Strict (token : ParamToken) : Prop :=
  token.e <:+ token.b ∧ token.e.length < token.b.length

end ParamToken

/-- `while (e != b && isspace(e[-1])) --e;`, with `e` as a distance from `b` -/
def backward (b : Bytes) : Nat → Option Nat
  | 0 => some 0
  | count + 1 =>
      b[count]?.bind fun byte => if isspace byte then backward b count else some (count + 1)

def extractValueTokens (source : Bytes) (separator : UInt8) :
    Option (Option (ParamToken × Bytes)) := do
  let start ← advance isspace source
  let opening ← start.head?
  if opening = 34 then
    let closing ← advance (fun byte => byte != 0 && byte ≠ 34) start.tail
    let quote ← closing.head?
    if quote = 0 then return none
    let blank ← advance isspace closing.tail
    let stop ← advance (fun byte => byte != 0 && byte ≠ separator) blank
    let last ← stop.head?
    if last = separator then return some (⟨start.tail, closing⟩, stop.tail)
    if last ≠ 0 then return none
    return some (⟨start.tail, closing⟩, stop)
  else
    let stop ← advance (fun byte => byte != 0 && byte ≠ separator) start
    let last ← stop.head?
    let count ← backward start (start.length - stop.length)
    return some (⟨start, start.drop count⟩, if last = separator then stop.tail else stop)

structure Extracted where
  name : ParamToken
  value : ParamToken
  source : Bytes

def emptyToken : ParamToken := ⟨[0], [0]⟩

def extractParamTokens (source : Bytes) (separator : UInt8) : Option (Option Extracted) := do
  let start ← advance isspace source
  let first ← start.head?
  if first = 0 then return none
  let nameEnd ← advance (fun byte => byte != 0 && inName separator byte) start
  if start = nameEnd then return none
  let behind ← advance isspace nameEnd
  let mark ← behind.head?
  if mark = separator then return some ⟨⟨start, nameEnd⟩, emptyToken, behind.tail⟩
  if mark = 0 then return some ⟨⟨start, nameEnd⟩, emptyToken, behind⟩
  if mark ≠ 61 then return none
  let found ← extractValueTokens behind.tail separator
  return found.map fun (value, rest) => ⟨⟨start, nameEnd⟩, value, rest⟩

/-- The calls of the `while` loop; without fuel they go on. -/
def extractParams : Nat → Bytes → Option (List (ParamToken × ParamToken))
  | 0, _ => none
  | fuel + 1, line =>
      (extractParamTokens line 44).bind fun
        | none => some []
        | some found => (extractParams fuel found.source).map ((found.name, found.value) :: ·)

/-! ### The texts of the tokens -/

section

variable {source start stop : Bytes} {separator : UInt8}

theorem advance_suffix {more : UInt8 → Bool} (found : advance more source = some stop) :
    stop <:+ source := by
  induction source with
  | nil => cases found
  | cons byte rest ih =>
      rw [advance] at found
      split at found
      · exact (ih found).trans (List.suffix_cons _ _)
      · cases found
        exact List.suffix_rfl

theorem backward_eq {b : Bytes} {count : Nat} (inside : count ≤ b.length) :
    ∃ kept ≤ count, backward b count = some kept ∧
      b.take kept = (b.take count).rdropWhile isspace := by
  induction count with
  | zero => exact ⟨0, Nat.le_refl 0, rfl, by simp⟩
  | succ count ih =>
      have here : b[count]? = some b[count] := List.getElem?_eq_getElem inside
      have taken : b.take (count + 1) = b.take count ++ [b[count]] := by
        rw [List.take_add_one, here, Option.toList_some]
      obtain ⟨kept, bound, found, text⟩ := ih (Nat.le_of_succ_le inside)
      cases space : isspace b[count] with
      | true =>
          refine ⟨kept, Nat.le_succ_of_le bound, ?_, ?_⟩
          · rw [backward, here, Option.bind_some, if_pos space, found]
          · rw [taken, List.rdropWhile_concat_pos _ _ _ space, text]
      | false =>
          refine ⟨count + 1, Nat.le_refl _, ?_, ?_⟩
          · rw [backward, here, Option.bind_some, space, if_neg Bool.false_ne_true]
          · rw [taken, List.rdropWhile_concat_neg _ _ _ (by simp [space])]

theorem between_drop {b : Bytes} {count : Nat} (inside : count ≤ b.length) :
    between b (b.drop count) = b.take count := by
  rw [between, List.length_drop, Nat.sub_sub_self inside]

theorem between_isEmpty {first last : Bytes} (behind : last <:+ first) :
    (between first last).isEmpty = true ↔ first = last := by
  obtain ⟨front, rfl⟩ := behind
  rw [between, List.length_append, Nat.add_sub_cancel_right, List.take_left, List.isEmpty_iff]
  constructor
  · rintro rfl
    rfl
  · intro same
    exact List.append_left_eq_self.mp same

theorem extractValueAt_tokens (source : Bytes) (separator : UInt8) :
    extractValueAt source separator = (extractValueTokens source separator).map
      (Option.map fun found => (found.1.text, found.2)) := by
  unfold extractValueAt extractValueTokens
  simp only [Option.bind_eq_bind, Option.map_bind, Function.comp_def]
  refine Option.bind_congr fun start _ => Option.bind_congr fun opening _ => ?_
  by_cases quote : opening = 34
  · simp only [if_pos quote, Option.map_bind, Function.comp_def]
    refine Option.bind_congr fun closing _ => Option.bind_congr fun last _ => ?_
    by_cases ended : last = 0
    · simp only [if_pos ended]
      rfl
    · simp only [if_neg ended, Option.map_bind, Function.comp_def]
      refine Option.bind_congr fun blank _ => Option.bind_congr fun stop _ =>
        Option.bind_congr fun last _ => ?_
      split
      · rfl
      · split
        · rfl
        · rfl
  · simp only [if_neg quote, Option.map_bind, Function.comp_def]
    refine Option.bind_congr fun stop _ => Option.bind_congr fun last _ => ?_
    obtain ⟨kept, bound, found, text⟩ := backward_eq (Nat.sub_le start.length stop.length)
    have inside : kept ≤ start.length := bound.trans (Nat.sub_le _ _)
    have same : (ParamToken.mk start (start.drop kept)).text =
        (between start stop).rdropWhile isspace := (between_drop inside).trans text
    rw [found, ← same]
    rfl

theorem extractParamAt_tokens (source : Bytes) (separator : UInt8) :
    extractParamAt source separator = (extractParamTokens source separator).map
      (Option.map fun found => ((found.name.text, found.value.text), found.source)) := by
  unfold extractParamAt extractParamTokens
  simp only [Option.bind_eq_bind, Option.map_bind, Function.comp_def]
  refine Option.bind_congr fun start _ => Option.bind_congr fun first _ => ?_
  by_cases ended : first = 0
  · simp only [if_pos ended]
    rfl
  · simp only [if_neg ended, Option.map_bind, Function.comp_def]
    refine Option.bind_congr fun nameEnd stopped => ?_
    have noName := between_isEmpty (advance_suffix stopped)
    by_cases empty : start = nameEnd
    · simp only [if_pos empty, if_pos (noName.mpr empty)]
      rfl
    · simp only [if_neg empty, if_neg (mt noName.mp empty), Option.map_bind, Function.comp_def]
      refine Option.bind_congr fun behind _ => Option.bind_congr fun mark _ => ?_
      split
      · rfl
      · split
        · rfl
        · split
          · rfl
          · rw [extractValueAt_tokens, Option.map_bind, Option.bind_map]
            refine Option.bind_congr fun found _ => ?_
            cases found with
            | none => rfl
            | some found => rfl

/-! ### Where the tokens are -/

theorem extractValueTokens_placed {value : ParamToken} {rest : Bytes}
    (found : extractValueTokens source separator = some (some (value, rest))) :
    value.Ordered ∧ value.b <:+ source := by
  simp only [extractValueTokens, Option.bind_eq_bind, Option.bind_eq_some_iff] at found
  obtain ⟨start, skipped, opening, -, found⟩ := found
  have inside := advance_suffix skipped
  by_cases quote : opening = 34
  · simp only [if_pos quote, Option.bind_eq_some_iff] at found
    obtain ⟨closing, scanned, last, -, found⟩ := found
    have token : (ParamToken.mk start.tail closing).Ordered ∧ start.tail <:+ source :=
      ⟨advance_suffix scanned, (List.tail_suffix start).trans inside⟩
    by_cases ended : last = 0
    · simp [ended] at found
    · simp only [if_neg ended, Option.bind_eq_some_iff] at found
      obtain ⟨blank, -, stop, -, last, -, found⟩ := found
      by_cases separated : last = separator
      · rw [if_pos separated] at found
        cases found
        exact token
      · rw [if_neg separated] at found
        by_cases garbage : last ≠ 0
        · simp [garbage] at found
        · rw [if_neg garbage] at found
          cases found
          exact token
  · simp only [if_neg quote, Option.bind_eq_some_iff] at found
    obtain ⟨stop, -, last, -, count, -, found⟩ := found
    cases found
    exact ⟨List.drop_suffix count start, inside⟩

theorem extractParamTokens_placed {found : Extracted}
    (result : extractParamTokens source separator = some (some found)) :
    found.name.Strict ∧ found.name.b <:+ source ∧ found.value.Ordered ∧
      (found.value.b <:+ source ∨ found.value = emptyToken) := by
  simp only [extractParamTokens, Option.bind_eq_bind, Option.bind_eq_some_iff] at result
  obtain ⟨start, skipped, first, -, result⟩ := result
  have inside := advance_suffix skipped
  by_cases ended : first = 0
  · simp [ended] at result
  · simp only [if_neg ended, Option.bind_eq_some_iff] at result
    obtain ⟨nameEnd, scanned, result⟩ := result
    have nameInside := advance_suffix scanned
    by_cases empty : start = nameEnd
    · simp [empty] at result
    · simp only [if_neg empty, Option.bind_eq_some_iff] at result
      obtain ⟨behind, blank, mark, -, result⟩ := result
      have behindInside := ((advance_suffix blank).trans nameInside).trans inside
      have name : (ParamToken.mk start nameEnd).Strict := by
        refine ⟨nameInside, lt_of_le_of_ne nameInside.length_le fun same => ?_⟩
        exact empty (nameInside.eq_of_length same).symm
      by_cases separated : mark = separator
      · rw [if_pos separated] at result
        cases result
        exact ⟨name, inside, List.suffix_rfl, .inr rfl⟩
      · rw [if_neg separated] at result
        by_cases noValue : mark = 0
        · rw [if_pos noValue] at result
          cases result
          exact ⟨name, inside, List.suffix_rfl, .inr rfl⟩
        · rw [if_neg noValue] at result
          by_cases wrong : mark ≠ 61
          · simp [wrong] at result
          · simp only [if_neg wrong, Option.bind_eq_some_iff] at result
            obtain ⟨valued, taken, result⟩ := result
            cases valued with
            | none => cases result
            | some valued =>
                obtain ⟨value, rest⟩ := valued
                cases result
                obtain ⟨ordered, valueInside⟩ := extractValueTokens_placed taken
                exact ⟨name, inside, ordered,
                  .inl (valueInside.trans ((List.tail_suffix behind).trans behindInside))⟩

end

/-! ### Terminated lines -/

section

variable {text : Bytes}

/-- On a terminated line the tokens have the texts that the list model finds. -/
theorem extractParamTokens_terminated (nulFree : 0 ∉ text) :
    ∃ result, extractParamTokens (text ++ [0]) 44 = some result ∧
      result.map (fun found => ((found.name.text, found.value.text), found.source)) =
        (extractParam text 44).map fun found => (found.1, found.2 ++ [0]) := by
  have read := extractParamAt_terminated nulFree (show (44 : UInt8) ≠ 0 by decide)
  rw [extractParamAt_tokens] at read
  exact Option.map_eq_some_iff.mp read

theorem extractParamTokens_forward (nulFree : 0 ∉ text) {found : Extracted}
    (result : extractParamTokens (text ++ [0]) 44 = some (some found)) :
    ∃ rest, found.source = rest ++ [0] ∧ rest <:+ text ∧ rest.length < text.length ∧
      extractParam text 44 = some ((found.name.text, found.value.text), rest) := by
  obtain ⟨other, same, texts⟩ := extractParamTokens_terminated nulFree
  obtain rfl := Option.some.inj (result.symm.trans same)
  obtain ⟨⟨param, rest⟩, listed, equal⟩ := Option.map_eq_some_iff.mp texts.symm
  obtain ⟨rfl, moved⟩ := Prod.mk.inj equal
  obtain ⟨suffix, shorter⟩ := extractParam_suffix listed
  exact ⟨rest, moved.symm, suffix, shorter, listed⟩

def listedParams : Nat → Bytes → List (Bytes × Bytes)
  | 0, _ => []
  | fuel + 1, text =>
      match extractParam text 44 with
      | none => []
      | some (param, rest) => param :: listedParams fuel rest

theorem extractParams_terminated {fuel : Nat} (nulFree : 0 ∉ text) (enough : text.length < fuel) :
    ∃ params, extractParams fuel (text ++ [0]) = some params ∧
      params.map (fun param => (param.1.text, param.2.text)) = listedParams fuel text := by
  induction fuel generalizing text with
  | zero => omega
  | succ fuel ih =>
      obtain ⟨result, called, texts⟩ := extractParamTokens_terminated nulFree
      rw [extractParams, called, Option.bind_some, listedParams]
      cases result with
      | none =>
          have ended : extractParam text 44 = none := Option.map_eq_none_iff.mp texts.symm
          exact ⟨[], rfl, by simp [ended]⟩
      | some found =>
          obtain ⟨rest, moved, suffix, shorter, listed⟩ := extractParamTokens_forward nulFree called
          obtain ⟨params, later, same⟩ :=
            ih (fun member => nulFree (suffix.subset member)) (show rest.length < fuel by omega)
          refine ⟨(found.name, found.value) :: params, ?_, ?_⟩
          · simp only [moved, later, Option.map_some]
          · simp only [listed, List.map_cons, same]

end

/-! ### Lists of parameters -/

def isBlank (text : Bytes) : Prop :=
  ∀ byte ∈ text, isspace byte = true

/-- A parameter `name=value` or `name="value"` with white space around its parts. -/
structure ScanParam where
  name : Bytes
  value : Bytes
  isQuoted : Bool
  before : Bytes
  afterName : Bytes
  beforeValue : Bytes
  afterValue : Bytes
  blanks : isBlank (before ++ afterName ++ beforeValue ++ afterValue)
  named : name ≠ []
  nameBytes : ∀ byte ∈ name, byte ≠ 0 ∧ byte ≠ 44 ∧ byte ≠ 61 ∧ isspace byte = false
  quotedBytes : isQuoted = true → ∀ byte ∈ value, byte ≠ 0 ∧ byte ≠ 34
  plainBytes : isQuoted = false → ∀ byte ∈ value, byte ≠ 0 ∧ byte ≠ 44
  plainFirst : isQuoted = false → ∀ byte ∈ value.head?, byte ≠ 34 ∧ isspace byte = false
  plainLast : isQuoted = false → ∀ byte ∈ value.getLast?, isspace byte = false

namespace ScanParam

def shown (param : ScanParam) : Bytes :=
  if param.isQuoted then quoted param.value else param.value

def text (param : ScanParam) : Bytes :=
  param.before ++ param.name ++ param.afterName ++ 61 :: param.beforeValue ++ param.shown ++
    param.afterValue

end ScanParam

def scanText (params : List ScanParam) : Bytes :=
  [44].intercalate (params.map ScanParam.text)

def isTail (tail : Bytes) : Prop :=
  tail = [] ∨ ∃ rest, tail = 44 :: rest

theorem isTail.dropWhile_isspace {tail : Bytes} (ended : isTail tail) :
    tail.dropWhile isspace = tail := by
  rcases ended with rfl | ⟨rest, rfl⟩
  · rfl
  · rfl

theorem isTail.dropWhile_ne {tail : Bytes} (ended : isTail tail) :
    tail.dropWhile (· ≠ 44) = tail := by
  rcases ended with rfl | ⟨rest, rfl⟩
  · rfl
  · rfl

theorem isTail.takeWhile_ne {tail : Bytes} (ended : isTail tail) :
    tail.takeWhile (· ≠ 44) = [] := by
  rcases ended with rfl | ⟨rest, rfl⟩
  · rfl
  · rfl

theorem isTail.not_quote {tail : Bytes} (ended : isTail tail) : tail.head? ≠ some 34 := by
  rcases ended with rfl | ⟨rest, rfl⟩
  · exact Option.some_ne_none 34 |>.symm
  · intro same
    exact absurd (Option.some.inj same) (by decide)

theorem extractValue_plain {plain : Bytes} (start : plain.dropWhile isspace = plain)
    (notQuote : plain.head? ≠ some 34) (separator : UInt8) :
    extractValue plain separator = some ((plain.takeWhile (· ≠ separator)).rdropWhile isspace,
      (plain.dropWhile (· ≠ separator)).drop 1) := by
  unfold extractValue
  rw [start]
  split
  · exact absurd rfl notQuote
  · rfl

theorem extractValue_quoted {value closed : Bytes} (inside : ∀ byte ∈ value, byte ≠ 34)
    (separator : UInt8) :
    extractValue (quoted value ++ closed) separator =
      some (value, ((closed.dropWhile isspace).dropWhile (· ≠ separator)).drop 1) := by
  have within : ∀ byte ∈ value, decide (byte ≠ 34) = true := fun byte member =>
    decide_eq_true (inside byte member)
  have opened : (quoted value ++ closed).dropWhile isspace = 34 :: (value ++ 34 :: closed) := by
    simp [quoted, isspace]
  unfold extractValue
  simp only [opened, List.dropWhile_append_of_pos within, List.takeWhile_append_of_pos within]
  have stops : (34 :: closed).dropWhile (· ≠ 34) = 34 :: closed := rfl
  have nothing : (34 :: closed).takeWhile (· ≠ 34) = [] := rfl
  rw [stops, nothing, List.append_nil]

theorem extractValue_blank {blank text : Bytes} (blanks : isBlank blank) (separator : UInt8) :
    extractValue (blank ++ text) separator = extractValue text separator := by
  rw [extractValue, extractValue, List.dropWhile_append_of_pos blanks]

theorem extractParam_blank {blank text : Bytes} (blanks : isBlank blank) :
    extractParam (blank ++ text) 44 = extractParam text 44 := by
  rw [extractParam_eq, extractParam_eq, List.dropWhile_append_of_pos blanks]

namespace ScanParam

variable (param : ScanParam) {tail : Bytes}

theorem extractValue_shown (ended : isTail tail) :
    extractValue (param.beforeValue ++ param.shown ++ param.afterValue ++ tail) 44 =
      some (param.value, tail.drop 1) := by
  have blankBefore : isBlank param.beforeValue := fun byte member =>
    param.blanks byte (by simp [member])
  have blankAfter : isBlank param.afterValue := fun byte member =>
    param.blanks byte (by simp [member])
  rw [List.append_assoc, List.append_assoc, extractValue_blank blankBefore]
  unfold shown
  cases quotes : param.isQuoted with
  | true =>
      have inside : ∀ byte ∈ param.value, byte ≠ 34 := fun byte member =>
        (param.quotedBytes quotes byte member).2
      rw [if_pos rfl, extractValue_quoted inside, List.dropWhile_append_of_pos blankAfter,
        ended.dropWhile_isspace, ended.dropWhile_ne]
  | false =>
      rw [if_neg Bool.false_ne_true]
      cases value : param.value with
      | nil =>
          rw [List.nil_append, extractValue_blank blankAfter,
            extractValue_plain ended.dropWhile_isspace ended.not_quote, ended.takeWhile_ne,
            ended.dropWhile_ne]
          rfl
      | cons first rest =>
          obtain ⟨notQuote, notSpace⟩ := param.plainFirst quotes first (by simp [value])
          have inside : ∀ byte ∈ first :: rest ++ param.afterValue, decide (byte ≠ 44) = true := by
            intro byte member
            rcases List.mem_append.mp member with here | blank
            · exact decide_eq_true (param.plainBytes quotes byte (value ▸ here)).2
            · refine decide_eq_true fun comma => ?_
              have space := blankAfter byte blank
              rw [comma] at space
              cases space
          have kept : (first :: rest).rdropWhile isspace = first :: rest := by
            refine List.rdropWhile_eq_self_iff.mpr fun nonempty => ?_
            have last := param.plainLast quotes ((first :: rest).getLast nonempty)
              (by rw [value]; exact List.getLast?_eq_some_getLast nonempty)
            rw [last]
            exact Bool.false_ne_true
          have start : (first :: rest ++ (param.afterValue ++ tail)).dropWhile isspace =
              first :: rest ++ (param.afterValue ++ tail) :=
            List.dropWhile_cons_of_neg (by simp [notSpace])
          rw [extractValue_plain start (by simpa using notQuote), ← List.append_assoc,
            List.takeWhile_append_of_pos inside, List.dropWhile_append_of_pos inside,
            ended.takeWhile_ne, ended.dropWhile_ne, List.append_nil,
            TokenReader.rdropWhile_append_of_pos blankAfter, kept]

theorem extractParam_text (ended : isTail tail) :
    extractParam (param.text ++ tail) 44 = some ((param.name, param.value), tail.drop 1) := by
  have blankBefore : isBlank param.before := fun byte member =>
    param.blanks byte (by simp [member])
  have blankAfter : isBlank param.afterName := fun byte member =>
    param.blanks byte (by simp [member])
  have inside : ∀ byte ∈ param.name, inName 44 byte = true := by
    intro byte member
    obtain ⟨-, comma, equals, space⟩ := param.nameBytes byte member
    simp [inName, comma, equals, space]
  have start : (param.text ++ tail).dropWhile isspace = param.name ++ (param.afterName ++
      61 :: (param.beforeValue ++ param.shown ++ param.afterValue ++ tail)) := by
    simp only [text, List.append_assoc, List.cons_append]
    rw [List.dropWhile_append_of_pos blankBefore]
    cases name : param.name with
    | nil => exact absurd name param.named
    | cons first rest =>
        have space := (param.nameBytes first (by simp [name])).2.2.2
        rw [List.cons_append, List.dropWhile_cons_of_neg (by simp [space])]
  have valued := param.extractValue_shown ended
  generalize param.beforeValue ++ param.shown ++ param.afterValue ++ tail = behind at start valued
  have stops : (param.afterName ++ 61 :: behind).takeWhile (inName 44) = [] ∧
      (param.afterName ++ 61 :: behind).dropWhile (inName 44) = param.afterName ++ 61 :: behind := by
    cases blank : param.afterName with
    | nil => exact ⟨rfl, rfl⟩
    | cons first rest =>
        have outside : inName 44 first = false := by
          simp [inName, blankAfter first (by simp [blank])]
        simp [outside]
  have spaces : (param.afterName ++ 61 :: behind).dropWhile isspace = 61 :: behind := by
    rw [List.dropWhile_append_of_pos blankAfter]
    rfl
  rw [extractParam_eq, start, List.takeWhile_append_of_pos inside,
    List.dropWhile_append_of_pos inside, stops.1, stops.2, spaces, List.append_nil,
    if_neg (by simpa using param.named)]
  simp [valued]

theorem nulFree : 0 ∉ param.text := by
  have blank : ∀ {part : Bytes}, (∀ byte ∈ part, byte ∈ param.before ++ param.afterName ++
      param.beforeValue ++ param.afterValue) → 0 ∉ part := fun inside member =>
    Bool.false_ne_true (param.blanks 0 (inside 0 member))
  have name : 0 ∉ param.name := fun member => (param.nameBytes 0 member).1 rfl
  have shown : 0 ∉ param.shown := by
    unfold ScanParam.shown
    cases quotes : param.isQuoted with
    | true =>
        have value : 0 ∉ param.value := fun member => (param.quotedBytes quotes 0 member).1 rfl
        simp [quoted, value]
    | false => exact fun member => (param.plainBytes quotes 0 member).1 rfl
  have before : 0 ∉ param.before := blank (by simp +contextual)
  have afterName : 0 ∉ param.afterName := blank (by simp +contextual)
  have beforeValue : 0 ∉ param.beforeValue := blank (by simp +contextual)
  have afterValue : 0 ∉ param.afterValue := blank (by simp +contextual)
  simp [text, name, shown, before, afterName, beforeValue, afterValue]

end ScanParam

theorem scanText_singleton (param : ScanParam) : scanText [param] = param.text :=
  List.intercalate_singleton

theorem scanText_cons_cons (param next : ScanParam) (rest : List ScanParam) :
    scanText (param :: next :: rest) = param.text ++ 44 :: scanText (next :: rest) := by
  simp [scanText]

theorem scanText_nulFree (params : List ScanParam) : 0 ∉ scanText params := by
  induction params with
  | nil => exact List.not_mem_nil
  | cons param rest ih =>
      cases rest with
      | nil =>
          rw [scanText_singleton]
          exact param.nulFree
      | cons next rest =>
          rw [scanText_cons_cons]
          simp [param.nulFree, ih]

theorem listedParams_scanText {params : List ScanParam} {fuel : Nat}
    (enough : params.length < fuel) :
    listedParams fuel (scanText params) = params.map fun param => (param.name, param.value) := by
  induction params generalizing fuel with
  | nil =>
      cases fuel with
      | zero => rfl
      | succ fuel => rfl
  | cons param rest ih =>
      cases fuel with
      | zero => simp at enough
      | succ fuel =>
          have shorter : rest.length < fuel := by simpa using enough
          cases rest with
          | nil =>
              have found := param.extractParam_text (.inl rfl : isTail [])
              rw [List.append_nil] at found
              simp only [listedParams, scanText_singleton, found, List.map_cons]
              exact congrArg _ (ih shorter)
          | cons next rest =>
              have found := param.extractParam_text
                (.inr ⟨scanText (next :: rest), rfl⟩ : isTail (44 :: scanText (next :: rest)))
              simp only [listedParams, scanText_cons_cons, found, List.map_cons]
              exact congrArg _ (ih shorter)

theorem length_le_scanText (params : List ScanParam) :
    params.length ≤ (scanText params).length := by
  induction params with
  | nil => exact Nat.zero_le _
  | cons param rest ih =>
      have positive : 0 < param.text.length := List.length_pos_iff.mpr (by simp [ScanParam.text])
      cases rest with
      | nil =>
          rw [scanText_singleton]
          exact positive
      | cons next rest =>
          rw [scanText_cons_cons, List.length_append, List.length_cons, List.length_cons]
          rw [List.length_cons] at ih ⊢
          omega

/-- The calls of `extract_param` end on every line; each that succeeds moves forward, not past the
end, to a name that is not empty and a value; and they return the parameters of a list. -/
theorem extract_param_scans :
    (∀ text, 0 ∉ text →
      (∃ result, extractParamTokens (text ++ [0]) 44 = some result ∧
        ∀ found, result = some found →
          (∃ rest, found.source = rest ++ [0] ∧ rest <:+ text ∧ rest.length < text.length) ∧
            found.name.Strict ∧ found.name.b <:+ text ++ [0] ∧ found.value.Ordered ∧
            (found.value.b <:+ text ++ [0] ∨ found.value = emptyToken)) ∧
      ∀ fuel, text.length < fuel → ∃ params, extractParams fuel (text ++ [0]) = some params) ∧
    ∀ (params : List ScanParam) (fuel : Nat), (scanText params).length < fuel →
      ∃ tokens, extractParams fuel (scanText params ++ [0]) = some tokens ∧
        tokens.map (fun token => (token.1.text, token.2.text)) =
          params.map fun param => (param.name, param.value) := by
  refine ⟨fun text nulFree => ⟨?_, fun fuel enough => ?_⟩, fun params fuel enough => ?_⟩
  · obtain ⟨result, called, -⟩ := extractParamTokens_terminated nulFree
    refine ⟨result, called, ?_⟩
    rintro found rfl
    obtain ⟨rest, moved, suffix, shorter, -⟩ := extractParamTokens_forward nulFree called
    exact ⟨⟨rest, moved, suffix, shorter⟩, extractParamTokens_placed called⟩
  · obtain ⟨params, called, -⟩ := extractParams_terminated nulFree enough
    exact ⟨params, called⟩
  · obtain ⟨tokens, called, texts⟩ := extractParams_terminated (scanText_nulFree params) enough
    refine ⟨tokens, called, texts.trans (listedParams_scanText ?_)⟩
    exact (length_le_scanText params).trans_lt enough

theorem quoted_comma_in_sync :
    (0 ∉ ascii "a = \"x" ∧ (ascii "a = \"x").length < 7 ∧
      ∃ params, extractParams 7 (ascii "a = \"x" ++ [0]) = some params) ∧
    (ascii "a = \"x,y\" ,b=").length < 20 ∧
      ∃ tokens, extractParams 20 (ascii "a = \"x,y\" ,b=" ++ [0]) = some tokens ∧
        tokens.map (fun token => (token.1.text, token.2.text)) =
          [(ascii "a", ascii "x,y"), (ascii "b", [])] := by
  have nulFree : 0 ∉ ascii "a = \"x" := by decide
  refine ⟨⟨nulFree, by decide, (extract_param_scans.1 _ nulFree).2 7 (by decide)⟩, by decide, ?_⟩
  exact extract_param_scans.2
    [{ name := ascii "a"
       value := ascii "x,y"
       isQuoted := true
       before := []
       afterName := ascii " "
       beforeValue := ascii " "
       afterValue := ascii " "
       blanks := List.all_eq_true.mp (by decide)
       named := List.cons_ne_nil _ _
       nameBytes := by simp [ascii, isspace]
       quotedBytes := by simp [ascii]
       plainBytes := by simp
       plainFirst := by simp
       plainLast := by simp },
     { name := ascii "b"
       value := []
       isQuoted := false
       before := []
       afterName := []
       beforeValue := []
       afterValue := []
       blanks := List.forall_mem_nil _
       named := List.cons_ne_nil _ _
       nameBytes := by simp [ascii, isspace]
       quotedBytes := by simp
       plainBytes := by simp
       plainFirst := by simp
       plainLast := by simp }] 20 (by decide)

end ProxySet
