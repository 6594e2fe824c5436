import Mathlib.Data.Bool.AllAny
import ProxySet.Lib.FirstMatch
import ProxySet.Redsocks.Numbers
import ProxySet.Redsocks.ParamScan

/-!
Digest challenges as RFC 2617 writes them, the answer it asks for, and the answer
that `digest_authentication_encode` gives.
-/

namespace ProxySet

open FirstMatch

/-! ### Challenges -/

/-- A parameter `name=value` or `name="value"` with white space around its parts. -/
structure DigestParam where
  name : Bytes
  value : Bytes
  isQuoted : Bool
  before : Bytes
  afterName : Bytes
  beforeValue : Bytes
  afterValue : Bytes
  blanks : isBlank (before ++ afterName ++ beforeValue ++ afterValue)
  named : name ≠ []
  nameBytes : ∀ byte ∈ name, byte ≠ 0 ∧ byte ≠ 34 ∧ byte ≠ 44 ∧ byte ≠ 61 ∧ isspace byte = false
  quotedBytes : isQuoted = true → ∀ byte ∈ value, byte ≠ 0 ∧ byte ≠ 34 ∧ byte ≠ 92
  plainBytes : isQuoted = false → value ≠ [] ∧
    ∀ byte ∈ value, byte ≠ 0 ∧ byte ≠ 34 ∧ byte ≠ 44 ∧ isspace byte = false

namespace DigestParam

def shown (param : DigestParam) : Bytes :=
  if param.isQuoted then quoted param.value else param.value

def text (param : DigestParam) : Bytes :=
  param.before ++ param.name ++ param.afterName ++ 61 :: param.beforeValue ++ param.shown ++
    param.afterValue

end DigestParam

def listText (params : List DigestParam) : Bytes :=
  [44].intercalate (params.map DigestParam.text)

/-- A header line `Proxy-Authenticate:` with a challenge of the scheme Digest. -/
structure DigestChallenge where
  header : Bytes
  blank : Bytes
  scheme : Bytes
  gap : Bytes
  params : List DigestParam
  isHeader : header.map tolower = authRequestHeader.map tolower
  blanks : isBlank (blank ++ gap)
  isScheme : scheme.map tolower = ascii "digest"
  separated : params ≠ [] → gap ≠ []

namespace DigestChallenge

def value (challenge : DigestChallenge) : Bytes :=
  challenge.scheme ++ challenge.gap ++ listText challenge.params

def line (challenge : DigestChallenge) : Bytes :=
  challenge.header ++ challenge.blank ++ challenge.value

/-- The block that `last_auth_query` points to once the line has been stored. -/
def block (challenge : DigestChallenge) : Bytes :=
  challengeOf challenge.line ++ [0]

end DigestChallenge

/-! ### The answer of RFC 2617 -/

def lastValue (picks : Bytes → Bool) (params : List DigestParam) : Option Bytes :=
  params.reverse.findSome? fun param => if picks param.name then some param.value else none

def isKey (key : String) (name : Bytes) : Bool :=
  name.map tolower == ascii key

def abbreviates (key : String) (name : Bytes) : Bool :=
  (name.map tolower).isPrefixOf (ascii key)

def trimmed (text : Bytes) : Bytes :=
  (text.dropWhile isspace).rdropWhile isspace

def offersAuth (qop : Bytes) : Bool :=
  ((qop.splitOn 44).map trimmed).contains (ascii "auth")

def hexDigits : Nat → Nat → Bytes
  | 0, _ => []
  | width + 1, value => hexDigits width (value / 16) ++ [hexDigit (value % 16).toUInt8]

structure DigestAnswer where
  username : Bytes
  realm : Bytes
  nonce : Bytes
  uri : Bytes
  response : Bytes
  /-- `qop`, `nc` and `cnonce` -/
  counted : Option (Bytes × Bytes × Bytes)
  opaqueText : Option Bytes

def countedText : Option (Bytes × Bytes × Bytes) → Bytes
  | some (qop, nc, cnonce) =>
      ascii ", qop=" ++ qop ++ ascii ", nc=" ++ nc ++ ascii ", cnonce=" ++ quoted cnonce
  | none => []

def opaqueField : Option Bytes → Bytes
  | some value => ascii ", opaque=" ++ quoted value
  | none => []

def DigestAnswer.text (answer : DigestAnswer) : Bytes :=
  ascii "username=" ++ quoted answer.username ++ ascii ", realm=" ++ quoted answer.realm ++
    ascii ", nonce=" ++ quoted answer.nonce ++ ascii ", uri=" ++ quoted answer.uri ++
    ascii ", response=" ++ quoted answer.response ++ countedText answer.counted ++
    opaqueField answer.opaqueText

section Rfc

variable (hash : Bytes → Bytes) (user passwd method uri : Bytes) (count : UInt32) (cnonce : Bytes)

def rfcResponse (realm nonce : Bytes) (isCounted : Bool) : Bytes :=
  let a1 := hash (user ++ colon ++ realm ++ colon ++ passwd)
  let a2 := hash (method ++ colon ++ uri)
  if isCounted then
    hash (a1 ++ colon ++ nonce ++ colon ++ hexDigits 8 count.toNat ++ colon ++ cnonce ++ colon ++
      ascii "auth" ++ colon ++ a2)
  else hash (a1 ++ colon ++ nonce ++ colon ++ a2)

def rfcAnswer (params : List DigestParam) : Option DigestAnswer :=
  match lastValue (isKey "realm") params, lastValue (isKey "nonce") params with
  | some realm, some nonce =>
      let answer (isCounted : Bool) : DigestAnswer :=
        { username := user
          realm := realm
          nonce := nonce
          uri := uri
          response := rfcResponse hash user passwd method uri count cnonce realm nonce isCounted
          counted := if isCounted then some (ascii "auth", hexDigits 8 count.toNat, cnonce) else none
          opaqueText := lastValue (isKey "opaque") params }
      match lastValue (isKey "qop") params with
      | none => some (answer false)
      | some qop => if offersAuth qop then some (answer true) else none
  | _, _ => none

/-- The credentials for the stored challenge are those of RFC 2617, whatever the hash, and
nothing is read behind the stored value. -/
def FollowsRfc (challenge : DigestChallenge) : Prop :=
  ∀ hash, digestAuthenticationEncodeAt hash user passwd method uri count.toNat cnonce
      (challenge.block.drop 7) =
    some ((rfcAnswer hash user passwd method uri count cnonce challenge.params).map
      DigestAnswer.text)

end Rfc

/-- The parameters are such that RFC 2617 has an answer. -/
def OffersDigest (params : List DigestParam) : Prop :=
  (lastValue (isKey "realm") params).isSome = true ∧
    (lastValue (isKey "nonce") params).isSome = true ∧
    (lastValue (isKey "qop") params).all offersAuth = true

/-- Where there is an answer, no abbreviated name comes in its way, and `qop` is `auth` alone;
where there is none, it is not for abbreviated names that one seems to be there, nor for a `qop`
that is `auth` up to its case. -/
def Unambiguous (params : List DigestParam) : Prop :=
  (OffersDigest params →
    (∀ key ∈ ["realm", "nonce", "opaque"],
      lastValue (abbreviates key) params = lastValue (isKey key) params) ∧
    lastValue (abbreviates "qop") params =
      (lastValue (isKey "qop") params).map fun _ => ascii "auth") ∧
  (¬OffersDigest params →
    lastValue (abbreviates "realm") params = none ∨ lastValue (abbreviates "nonce") params = none ∨
      ∃ qop, lastValue (abbreviates "qop") params = some qop ∧ qop.map tolower ≠ ascii "auth")

/-! ### Names -/

theorem tolower_eq_zero {byte : UInt8} (zero : tolower byte = 0) : byte = 0 := by
  have checked := forall_byte (fun byte => tolower byte != 0 || byte == 0) (by decide +kernel) byte
  simpa [zero] using checked

theorem paramNamed_eq {name : Bytes} {key : String} (nulFree : 0 ∉ name)
    (lower : (ascii key).map tolower = ascii key) :
    paramNamed name key = abbreviates key name := by
  have whole : (name ++ [0]).take name.length = name := List.take_left
  have keyed : ((ascii key ++ [0]).take name.length).map tolower =
      (ascii key ++ [0]).take name.length := by
    rw [List.map_take, List.map_append, lower]
    rfl
  rw [Bool.eq_iff_iff, paramNamed, strncasecmpEq, abbreviates, whole, keyed, beq_iff_eq,
    List.isPrefixOf_iff_prefix]
  constructor
  · intro same
    have front : name.map tolower <+: ascii key ++ [0] := same ▸ List.take_prefix _ _
    rcases List.prefix_concat_iff.mp front with long | short
    · have zero : 0 ∈ name.map tolower := by rw [long]; simp
      obtain ⟨byte, member, lowered⟩ := List.mem_map.mp zero
      exact (nulFree (tolower_eq_zero lowered ▸ member)).elim
    · exact short
  · intro front
    have length := front.length_le
    rw [List.length_map] at length
    rw [List.take_append_of_le_length length]
    simpa using List.prefix_iff_eq_take.mp front

theorem abbreviates_of_isKey {key : String} {name : Bytes} (same : isKey key name = true) :
    abbreviates key name = true := by
  rw [isKey, beq_iff_eq] at same
  rw [abbreviates, same, List.isPrefixOf_iff_prefix]

theorem head_of_abbreviates {key : String} {name : Bytes} (named : name ≠ [])
    (short : abbreviates key name = true) : (name.map tolower).head? = (ascii key).head? := by
  obtain ⟨rest, split⟩ := List.isPrefixOf_iff_prefix.mp short
  cases name with
  | nil => exact absurd rfl named
  | cons first name => rw [← split]; rfl

theorem DigestParams.set_eq (params : DigestParams) {name : Bytes} (value : Bytes)
    (nulFree : 0 ∉ name) (named : name ≠ []) :
    params.set name value =
      { realm := (if abbreviates "realm" name then some value else none).or params.realm
        opaqueText :=
          (if abbreviates "opaque" name then some value else none).or params.opaqueText
        nonce := (if abbreviates "nonce" name then some value else none).or params.nonce
        qop := (if abbreviates "qop" name then some value else none).or params.qop } := by
  have apart {first second : String} (short : abbreviates first name = true)
      (differ : (ascii first).head? ≠ (ascii second).head?) : abbreviates second name = false := by
    cases other : abbreviates second name with
    | false => rfl
    | true => exact absurd ((head_of_abbreviates named short).symm.trans
        (head_of_abbreviates named other)) differ
  simp only [set, paramNamed_eq nulFree (by decide +kernel : (ascii "realm").map tolower = _),
    paramNamed_eq nulFree (by decide +kernel : (ascii "opaque").map tolower = _),
    paramNamed_eq nulFree (by decide +kernel : (ascii "nonce").map tolower = _),
    paramNamed_eq nulFree (by decide +kernel : (ascii "qop").map tolower = _)]
  cases realm : abbreviates "realm" name with
  | true =>
      simp [apart realm (by decide : (ascii "realm").head? ≠ (ascii "opaque").head?),
        apart realm (by decide : (ascii "realm").head? ≠ (ascii "nonce").head?),
        apart realm (by decide : (ascii "realm").head? ≠ (ascii "qop").head?)]
  | false =>
      cases opaqueText : abbreviates "opaque" name with
      | true =>
          simp [apart opaqueText (by decide : (ascii "opaque").head? ≠ (ascii "nonce").head?),
            apart opaqueText (by decide : (ascii "opaque").head? ≠ (ascii "qop").head?)]
      | false =>
          cases nonce : abbreviates "nonce" name with
          | true => simp [apart nonce (by decide : (ascii "nonce").head? ≠ (ascii "qop").head?)]
          | false =>
              cases qop : abbreviates "qop" name with
              | true => simp
              | false => simp

/-! ### Reading a parameter list -/

def DigestParam.scan (param : DigestParam) : ScanParam :=
  { name := param.name
    value := param.value
    isQuoted := param.isQuoted
    before := param.before
    afterName := param.afterName
    beforeValue := param.beforeValue
    afterValue := param.afterValue
    blanks := param.blanks
    named := param.named
    nameBytes := fun byte member =>
      have bytes := param.nameBytes byte member
      ⟨bytes.1, bytes.2.2⟩
    quotedBytes := fun quotes byte member =>
      have bytes := param.quotedBytes quotes byte member
      ⟨bytes.1, bytes.2.1⟩
    plainBytes := fun quotes byte member =>
      have bytes := (param.plainBytes quotes).2 byte member
      ⟨bytes.1, bytes.2.2.1⟩
    plainFirst := fun quotes byte first =>
      have bytes := (param.plainBytes quotes).2 byte (List.mem_of_mem_head? first)
      ⟨bytes.2.1, bytes.2.2.2⟩
    plainLast := fun quotes byte last =>
      ((param.plainBytes quotes).2 byte (List.mem_of_mem_getLast? last)).2.2.2 }

theorem DigestParam.extractParam_text (param : DigestParam) {tail : Bytes} (ended : isTail tail) :
    extractParam (param.text ++ tail) 44 = some ((param.name, param.value), tail.drop 1) :=
  param.scan.extractParam_text ended

theorem nulFree_name (param : DigestParam) : 0 ∉ param.name :=
  fun member => (param.nameBytes 0 member).1 rfl

theorem text_ne_nil (param : DigestParam) : param.text ≠ [] := by
  simp [DigestParam.text]

theorem listText_singleton (param : DigestParam) : listText [param] = param.text :=
  List.intercalate_singleton

theorem listText_cons_cons (param next : DigestParam) (rest : List DigestParam) :
    listText (param :: next :: rest) = param.text ++ 44 :: listText (next :: rest) := by
  simp [listText]

theorem digestParams_eq_foldl (fuel : Nat) (line : Bytes) (init : DigestParams) :
    digestParams fuel line init =
      (listedParams fuel line).foldl (fun slots pair => slots.set pair.1 pair.2) init := by
  induction fuel generalizing line init with
  | zero => rfl
  | succ fuel ih =>
      rw [digestParams, listedParams]
      cases extractParam line 44 with
      | none => rfl
      | some found => exact ih found.2 _

theorem listedParams_listText {params : List DigestParam} {fuel : Nat} {blank : Bytes}
    (blanks : isBlank blank) (enough : params.length ≤ fuel) :
    listedParams fuel (blank ++ listText params) =
      params.map fun param => (param.name, param.value) := by
  induction params generalizing fuel blank with
  | nil =>
      cases fuel with
      | zero => rfl
      | succ fuel =>
          have nothing : extractParam (blank ++ listText []) 44 = none := by
            rw [extractParam_blank blanks]
            rfl
          simp only [listedParams, nothing, List.map_nil]
  | cons param rest ih =>
      cases fuel with
      | zero => simp at enough
      | succ fuel =>
          have shorter : rest.length ≤ fuel := by simpa using enough
          cases rest with
          | nil =>
              have found := param.extractParam_text (.inl rfl : isTail [])
              rw [List.append_nil] at found
              simp only [listedParams, extractParam_blank blanks, listText_singleton, found,
                List.map_cons]
              exact congrArg _ (ih (List.forall_mem_nil _ : isBlank []) shorter)
          | cons next rest =>
              have found := param.extractParam_text
                (.inr ⟨listText (next :: rest), rfl⟩ : isTail (44 :: listText (next :: rest)))
              rw [listedParams, extractParam_blank blanks, listText_cons_cons, found]
              exact congrArg _ (ih (List.forall_mem_nil _ : isBlank []) shorter)

theorem digestParams_listText {params : List DigestParam} {fuel : Nat} {blank : Bytes}
    (blanks : isBlank blank) (enough : params.length ≤ fuel) (init : DigestParams) :
    digestParams fuel (blank ++ listText params) init =
      params.foldl (fun slots param => slots.set param.name param.value) init := by
  rw [digestParams_eq_foldl, listedParams_listText blanks enough, List.foldl_map]

theorem length_le_listText (params : List DigestParam) :
    params.length ≤ (listText params).length := by
  induction params with
  | nil => exact Nat.zero_le _
  | cons param rest ih =>
      have positive := List.length_pos_iff.mpr (text_ne_nil param)
      cases rest with
      | nil =>
          rw [listText_singleton]
          exact positive
      | cons next rest =>
          rw [listText_cons_cons, List.length_append, List.length_cons, List.length_cons]
          rw [List.length_cons] at ih ⊢
          omega

/-- What the code takes each of its four parameters from. -/
theorem foldl_set (params : List DigestParam) :
    params.foldl (fun (slots : DigestParams) param => slots.set param.name param.value)
        { realm := none, opaqueText := none, nonce := none, qop := none } =
      { realm := lastValue (abbreviates "realm") params
        opaqueText := lastValue (abbreviates "opaque") params
        nonce := lastValue (abbreviates "nonce") params
        qop := lastValue (abbreviates "qop") params } := by
  have each (slots : DigestParams) (param : DigestParam) :=
    slots.set_eq param.value (nulFree_name param) param.named
  have ends (field : DigestParams → Option Bytes) (key : String)
      (sets : ∀ param ∈ params, ∀ slots : DigestParams,
        field (slots.set param.name param.value) =
          (if abbreviates key param.name then some param.value else none).or (field slots))
      (unset : field { realm := none, opaqueText := none, nonce := none, qop := none } = none) :
      field (params.foldl (fun slots param => slots.set param.name param.value)
        { realm := none, opaqueText := none, nonce := none, qop := none }) =
      lastValue (abbreviates key) params := by
    rw [foldl_lastSet sets, unset, Option.or_none]
    rfl
  have realm := ends DigestParams.realm "realm" (fun param _ slots => by rw [each]) rfl
  have opaqueText := ends DigestParams.opaqueText "opaque" (fun param _ slots => by rw [each]) rfl
  have nonce := ends DigestParams.nonce "nonce" (fun param _ slots => by rw [each]) rfl
  have qop := ends DigestParams.qop "qop" (fun param _ slots => by rw [each]) rfl
  rw [← realm, ← opaqueText, ← nonce, ← qop]

theorem nulFree_blank {blank : Bytes} (blanks : isBlank blank) : 0 ∉ blank :=
  fun member => Bool.false_ne_true (blanks 0 member)

theorem nulFree_value (param : DigestParam) : 0 ∉ param.value := by
  intro member
  cases quotes : param.isQuoted with
  | true => exact (param.quotedBytes quotes 0 member).1 rfl
  | false => exact ((param.plainBytes quotes).2 0 member).1 rfl

theorem quoteFree_value (param : DigestParam) : 34 ∉ param.value := by
  intro member
  cases quotes : param.isQuoted with
  | true => exact (param.quotedBytes quotes 34 member).2.1 rfl
  | false => exact ((param.plainBytes quotes).2 34 member).2.1 rfl

theorem nulFree_text (param : DigestParam) : 0 ∉ param.text := by
  have blanks := nulFree_blank param.blanks
  have name := nulFree_name param
  have value := nulFree_value param
  simp only [List.mem_append, not_or] at blanks
  unfold DigestParam.text DigestParam.shown quoted
  split
  · simp [blanks, name, value]
  · simp [blanks, name, value]

theorem nulFree_listText (params : List DigestParam) : 0 ∉ listText params := by
  induction params with
  | nil => exact List.not_mem_nil
  | cons param rest ih =>
      cases rest with
      | nil =>
          rw [listText_singleton]
          exact nulFree_text param
      | cons next rest =>
          rw [listText_cons_cons]
          simp [nulFree_text param, ih]

namespace DigestChallenge

variable (challenge : DigestChallenge)

theorem scheme_length : challenge.scheme.length = 6 := by
  have length := congrArg List.length challenge.isScheme
  rw [List.length_map] at length
  rw [length]
  decide

theorem challengeOf_line : challengeOf challenge.line = challenge.value := by
  have blanks : isBlank challenge.blank := fun byte member => challenge.blanks byte (by simp [member])
  have length : challenge.header.length = authRequestHeader.length := by
    simpa using congrArg List.length challenge.isHeader
  rw [challengeOf, line, List.append_assoc, ← length, List.drop_left,
    List.dropWhile_append_of_pos blanks, value, List.append_assoc]
  have letter := congrArg List.head? challenge.isScheme
  cases scheme : challenge.scheme with
  | nil => rw [scheme] at letter; cases letter
  | cons first rest =>
      have lowered : tolower first = 100 := by
        rw [scheme, (by decide : (ascii "digest").head? = some 100)] at letter
        exact Option.some.inj letter
      have space := forall_byte (fun byte => tolower byte != 100 || !isspace byte)
        (by decide +kernel) first
      rw [List.cons_append, List.dropWhile_cons_of_neg (by simpa [lowered] using space)]

theorem block_drop {first : UInt8} {gap : Bytes} (split : challenge.gap = first :: gap) :
    challenge.block.drop 7 = gap ++ listText challenge.params ++ [0] := by
  have length : 7 = challenge.scheme.length + 1 := by rw [scheme_length]
  rw [block, challengeOf_line, value, split, length, List.append_assoc, List.append_assoc,
    List.drop_append]
  simp

theorem block_drop_of_no_gap (bare : challenge.gap = []) : challenge.block.drop 7 = [] := by
  have empty : challenge.params = [] := by
    by_contra some
    exact challenge.separated some bare
  have length := scheme_length challenge
  apply List.drop_eq_nil_of_le
  rw [block, challengeOf_line, value, bare, empty]
  simp [listText, length]

end DigestChallenge

/-! ### The nonce count -/

theorem hexChar_code {value : Nat} (small : value < 16) :
    (Nat.digitChar value).toNat.toUInt8 = hexDigit value.toUInt8 := by
  have checked := forall_small
    (fun value => (Nat.digitChar value).toNat.toUInt8 == hexDigit value.toUInt8)
    (by decide : ((List.range 16).all fun value =>
      (Nat.digitChar value).toNat.toUInt8 == hexDigit value.toUInt8) = true) small
  simpa using checked

theorem hexDigits_zero (width : Nat) : hexDigits width 0 = List.replicate width 48 := by
  induction width with
  | zero => rfl
  | succ width ih =>
      rw [hexDigits, Nat.zero_div, ih, List.replicate_succ']
      rfl

theorem toDigits_filled {width value : Nat} (fits : value < 16 ^ width) (positive : 0 < width) :
    (Nat.toDigits 16 value).length ≤ width ∧
      List.replicate (width - (Nat.toDigits 16 value).length) 48 ++
        ((Nat.toDigits 16 value).map fun digit => digit.toNat.toUInt8) = hexDigits width value := by
  induction width generalizing value with
  | zero => omega
  | succ width ih =>
      rcases Nat.lt_or_ge value 16 with small | large
      · rw [Nat.toDigits_of_lt_base small, hexDigits, Nat.div_eq_of_lt small, hexDigits_zero,
          Nat.mod_eq_of_lt small]
        simp [hexChar_code small]
      · have shorter : value / 16 < 16 ^ width := by
          rw [Nat.div_lt_iff_lt_mul (by decide)]
          rwa [pow_succ] at fits
        have wide : 0 < width := by
          by_contra none
          have zero : width = 0 := by omega
          rw [zero] at fits
          omega
        obtain ⟨bound, filled⟩ := ih shorter wide
        rw [Nat.toDigits_of_base_le (by decide) large, hexDigits, ← filled]
        constructor
        · simpa using bound
        · simp [hexChar_code (Nat.mod_lt value (by decide))]

theorem hex8_eq (count : UInt32) : hex8 count.toNat = hexDigits 8 count.toNat := by
  have fits : count.toNat < 16 ^ 8 := count.toNat_lt
  simp only [hex8, List.length_map]
  exact (toDigits_filled fits (by decide)).2

/-! ### The answer of the code -/

theorem strncasecmpEq_auth {qop : Bytes} (nulFree : 0 ∉ qop) :
    strncasecmpEq qop (ascii "auth") 5 = true ↔ qop.map tolower = ascii "auth" := by
  have key : ((ascii "auth" ++ [0]).take 5).map tolower = ascii "auth" ++ [0] := by decide +kernel
  rw [strncasecmpEq, beq_iff_eq, key]
  constructor
  · intro same
    have lengths := congrArg List.length same
    simp only [List.length_map, List.length_take, List.length_append, List.length_singleton,
      (by decide : (ascii "auth").length = 4)] at lengths
    rw [List.map_take, List.map_append] at same
    rcases Nat.lt_or_ge 4 qop.length with long | short
    · have zero : 0 ∈ qop.map tolower := by
        rw [List.take_append_of_le_length (by rw [List.length_map]; omega)] at same
        exact List.mem_of_mem_take (same ▸ by simp : 0 ∈ (qop.map tolower).take 5)
      obtain ⟨byte, member, lowered⟩ := List.mem_map.mp zero
      exact (nulFree (tolower_eq_zero lowered ▸ member)).elim
    · rw [List.take_of_length_le (by rw [List.length_append, List.length_map]; simp; omega)] at same
      exact List.append_cancel_right same
  · intro same
    have length : qop.length = 4 := by
      have lengths := congrArg List.length same
      rw [List.length_map] at lengths
      rw [lengths]
      decide
    rw [List.take_of_length_le (by simp [length]), List.map_append, same]
    rfl

section Answer

variable (hash : Bytes → Bytes) (user passwd method uri : Bytes) (count : Nat) (cnonce : Bytes)

def codeAnswer (slots : DigestParams) (realm nonce : Bytes) : DigestAnswer :=
  { username := user
    realm := realm
    nonce := nonce
    uri := uri
    response := responseBy hash user passwd method uri count cnonce realm nonce slots.qop
    counted := slots.qop.map fun qop => (qop, hex8 count, cnonce)
    opaqueText := slots.opaqueText }

theorem encodeParams_eq {slots : DigestParams} {realm nonce : Bytes}
    (realmSet : slots.realm = some realm) (nonceSet : slots.nonce = some nonce)
    (auth : (slots.qop.any fun qop => !strncasecmpEq qop (ascii "auth") 5) = false) :
    encodeParams hash user passwd method uri count cnonce slots =
      some (codeAnswer hash user passwd method uri count cnonce slots realm nonce).text := by
  simp only [encodeParams, realmSet, nonceSet, auth, Bool.false_eq_true, if_false]
  cases qop : slots.qop with
  | none =>
      cases given : slots.opaqueText with
      | none => simp [codeAnswer, DigestAnswer.text, countedText, opaqueField, qop, given]
      | some value => simp [codeAnswer, DigestAnswer.text, countedText, opaqueField, qop, given]
  | some text =>
      cases given : slots.opaqueText with
      | none => simp [codeAnswer, DigestAnswer.text, countedText, opaqueField, qop, given]
      | some value => simp [codeAnswer, DigestAnswer.text, countedText, opaqueField, qop, given]

theorem encodeParams_eq_none_iff (slots : DigestParams) :
    encodeParams hash user passwd method uri count cnonce slots = none ↔
      slots.realm = none ∨ slots.nonce = none ∨
        (slots.qop.any fun qop => !strncasecmpEq qop (ascii "auth") 5) = true := by
  cases realm : slots.realm with
  | none => simp [encodeParams, realm]
  | some realmText =>
      cases nonce : slots.nonce with
      | none => simp [encodeParams, realm, nonce]
      | some nonceText =>
          cases auth : slots.qop.any fun qop => !strncasecmpEq qop (ascii "auth") 5 with
          | true => simp [encodeParams, realm, nonce, auth]
          | false =>
              rw [encodeParams_eq hash user passwd method uri count cnonce realm nonce auth]
              simp

end Answer

/-! ### What can be told from an answer -/

theorem opaqueField_injective {first second : Option Bytes}
    (same : opaqueField first = opaqueField second) : first = second := by
  cases first with
  | none =>
      cases second with
      | none => rfl
      | some value => simp [opaqueField, quoted] at same
  | some value =>
      cases second with
      | none => simp [opaqueField, quoted] at same
      | some other => simpa [opaqueField, quoted] using same

theorem countedText_ne_opaqueField {counted : Bytes × Bytes × Bytes} {tail : Bytes}
    {given : Option Bytes} : countedText (some counted) ++ tail ≠ opaqueField given := by
  intro same
  have front := congrArg (List.take 3) same
  obtain ⟨qop, nc, cnonce⟩ := counted
  have left : (countedText (some (qop, nc, cnonce)) ++ tail).take 3 = (ascii ", qop=").take 3 := by
    simp only [countedText, List.append_assoc]
    rw [List.take_append_of_le_length (by decide)]
  rw [left] at front
  cases given with
  | none => exact absurd front (by decide)
  | some value =>
      rw [opaqueField, List.take_append_of_le_length (by decide)] at front
      exact absurd front (by decide)

theorem tail_injective {first : Option Bytes} {second : Option Bytes} {nc cnonce : Bytes}
    {given other : Option Bytes} (short : ∀ qop ∈ first, qop.length = 4)
    (same : countedText (first.map fun qop => (qop, nc, cnonce)) ++ opaqueField given =
      countedText (second.map fun _ => (ascii "auth", nc, cnonce)) ++ opaqueField other) :
    first = second.map (fun _ => ascii "auth") ∧ given = other := by
  cases first with
  | none =>
      cases second with
      | none => exact ⟨rfl, opaqueField_injective same⟩
      | some offered => exact (countedText_ne_opaqueField same.symm).elim
  | some qop =>
      cases second with
      | none => exact (countedText_ne_opaqueField same).elim
      | some offered =>
          simp only [Option.map_some, countedText, List.append_assoc,
            List.append_cancel_left_eq] at same
          have lengths : qop.length = (ascii "auth").length := by
            rw [short qop rfl]
            decide
          obtain ⟨qopEq, rest⟩ := List.append_inj same lengths
          simp only [List.append_cancel_left_eq] at rest
          exact ⟨by rw [qopEq]; rfl, opaqueField_injective rest⟩

theorem DigestAnswer.text_injective {first second : DigestAnswer} (same : first.text = second.text)
    (user : first.username = second.username) (uri : first.uri = second.uri)
    (response : first.response = second.response)
    (realms : 34 ∉ first.realm ∧ 34 ∉ second.realm)
    (nonces : 34 ∉ first.nonce ∧ 34 ∉ second.nonce) :
    first.realm = second.realm ∧ first.nonce = second.nonce ∧
      countedText first.counted ++ opaqueField first.opaqueText =
        countedText second.counted ++ opaqueField second.opaqueText := by
  simp only [text, quoted, List.append_assoc, user, uri, response, List.append_cancel_left_eq,
    List.cons_append, List.cons.injEq, true_and] at same
  obtain ⟨realm, rest⟩ := TokenReader.cut_unique realms.1 realms.2 same
  simp only [List.append_cancel_left_eq, List.cons.injEq, true_and] at rest
  obtain ⟨nonce, tail⟩ := TokenReader.cut_unique nonces.1 nonces.2 rest
  simp only [List.append_cancel_left_eq, List.cons.injEq, true_and] at tail
  exact ⟨realm, nonce, tail⟩

/-! ### Where the code follows the RFC -/

theorem lastValue_isSome_of_isKey {key : String} {params : List DigestParam}
    (given : (lastValue (isKey key) params).isSome = true) :
    (lastValue (abbreviates key) params).isSome = true := by
  rw [lastValue, List.findSome?_isSome_iff] at given ⊢
  obtain ⟨param, member, set⟩ := given
  refine ⟨param, member, ?_⟩
  cases same : isKey key param.name with
  | false => simp [same] at set
  | true => simp [abbreviates_of_isKey same]

theorem lastValue_bytes {picks : Bytes → Bool} {params : List DigestParam} {value : Bytes}
    (found : lastValue picks params = some value) : 0 ∉ value ∧ 34 ∉ value := by
  obtain ⟨param, -, set⟩ := List.exists_of_findSome?_eq_some found
  split at set
  · cases set
    exact ⟨nulFree_value param, quoteFree_value param⟩
  · cases set

section Follows

variable {user passwd method uri : Bytes} {count : UInt32} {cnonce : Bytes}
  {params : List DigestParam}

def slotsOf (params : List DigestParam) : DigestParams :=
  { realm := lastValue (abbreviates "realm") params
    opaqueText := lastValue (abbreviates "opaque") params
    nonce := lastValue (abbreviates "nonce") params
    qop := lastValue (abbreviates "qop") params }

theorem encode_block (hash : Bytes → Bytes) {challenge : DigestChallenge}
    (separate : challenge.gap ≠ []) :
    digestAuthenticationEncodeAt hash user passwd method uri count.toNat cnonce
        (challenge.block.drop 7) =
      some (encodeParams hash user passwd method uri count.toNat cnonce
        (slotsOf challenge.params)) := by
  obtain ⟨first, gap, split⟩ := List.exists_cons_of_ne_nil separate
  have blank : isBlank gap := fun byte member => challenge.blanks byte (by simp [split, member])
  have nulFree : 0 ∉ gap ++ listText challenge.params := by
    simp [nulFree_blank blank, nulFree_listText]
  have enough := length_le_listText challenge.params
  rw [challenge.block_drop split, encodeAt_terminated _ _ _ _ _ _ _ nulFree,
    digestParams_listText blank (by rw [List.length_append]; omega), foldl_set]
  rfl

theorem encode_bare (hash : Bytes → Bytes) {challenge : DigestChallenge}
    (bare : challenge.gap = []) :
    digestAuthenticationEncodeAt hash user passwd method uri count.toNat cnonce
      (challenge.block.drop 7) = none := by
  rw [challenge.block_drop_of_no_gap bare]
  rfl

def servedAnswer (hash : Bytes → Bytes) (user passwd method uri : Bytes) (count : UInt32)
    (cnonce : Bytes) (params : List DigestParam) (realm nonce : Bytes) : DigestAnswer :=
  { username := user
    realm := realm
    nonce := nonce
    uri := uri
    response := rfcResponse hash user passwd method uri count cnonce realm nonce
      (lastValue (isKey "qop") params).isSome
    counted := (lastValue (isKey "qop") params).map fun _ =>
      (ascii "auth", hexDigits 8 count.toNat, cnonce)
    opaqueText := lastValue (isKey "opaque") params }

theorem rfcAnswer_of_served (hash : Bytes → Bytes) (served : OffersDigest params) {realm nonce : Bytes}
    (hasRealm : lastValue (isKey "realm") params = some realm)
    (hasNonce : lastValue (isKey "nonce") params = some nonce) :
    rfcAnswer hash user passwd method uri count cnonce params =
      some (servedAnswer hash user passwd method uri count cnonce params realm nonce) := by
  have offered := served.2.2
  cases qop : lastValue (isKey "qop") params with
  | none => simp [rfcAnswer, servedAnswer, hasRealm, hasNonce, qop]
  | some text =>
      rw [qop, Option.all_some] at offered
      simp [rfcAnswer, servedAnswer, hasRealm, hasNonce, qop, offered]

theorem rfcAnswer_of_not_served (hash : Bytes → Bytes) (unserved : ¬OffersDigest params) :
    rfcAnswer hash user passwd method uri count cnonce params = none := by
  unfold OffersDigest at unserved
  cases realm : lastValue (isKey "realm") params with
  | none => simp [rfcAnswer, realm]
  | some realmText =>
      cases nonce : lastValue (isKey "nonce") params with
      | none => simp [rfcAnswer, realm, nonce]
      | some nonceText =>
          cases qop : lastValue (isKey "qop") params with
          | none => simp [realm, nonce, qop] at unserved
          | some text =>
              have refused : offersAuth text = false := by
                simpa [realm, nonce, qop] using unserved
              simp [rfcAnswer, realm, nonce, qop, refused]

theorem qop_refused_iff :
    ((slotsOf params).qop.any fun qop => !strncasecmpEq qop (ascii "auth") 5) = true ↔
      ∃ qop, lastValue (abbreviates "qop") params = some qop ∧ qop.map tolower ≠ ascii "auth" := by
  rw [Option.any_eq_true]
  constructor
  · rintro ⟨qop, found, differs⟩
    refine ⟨qop, found, fun same => ?_⟩
    rw [(strncasecmpEq_auth (lastValue_bytes found).1).mpr same] at differs
    cases differs
  · rintro ⟨qop, found, differs⟩
    refine ⟨qop, found, ?_⟩
    rw [Bool.not_eq_true']
    exact Bool.eq_false_iff.mpr fun same =>
      differs ((strncasecmpEq_auth (lastValue_bytes found).1).mp same)

theorem responseBy_eq (hash : Bytes → Bytes) {realm nonce : Bytes} {qop given : Option Bytes}
    (plain : qop = given.map fun _ => ascii "auth") :
    responseBy hash user passwd method uri count.toNat cnonce realm nonce qop =
      rfcResponse hash user passwd method uri count cnonce realm nonce given.isSome := by
  subst plain
  cases given with
  | none => simp [responseBy, rfcResponse]
  | some offered => simp [responseBy, rfcResponse, hex8_eq]

theorem served_follows (served : OffersDigest params) :
    (∀ hash, encodeParams hash user passwd method uri count.toNat cnonce (slotsOf params) =
      (rfcAnswer hash user passwd method uri count cnonce params).map DigestAnswer.text) ↔
    (∀ key ∈ ["realm", "nonce", "opaque"],
      lastValue (abbreviates key) params = lastValue (isKey key) params) ∧
    lastValue (abbreviates "qop") params =
      (lastValue (isKey "qop") params).map fun _ => ascii "auth" := by
  obtain ⟨realm, hasRealm⟩ := Option.isSome_iff_exists.mp served.1
  obtain ⟨nonce, hasNonce⟩ := Option.isSome_iff_exists.mp served.2.1
  obtain ⟨taken, takesRealm⟩ := Option.isSome_iff_exists.mp (lastValue_isSome_of_isKey served.1)
  obtain ⟨other, takesNonce⟩ := Option.isSome_iff_exists.mp (lastValue_isSome_of_isKey served.2.1)
  simp only [rfcAnswer_of_served _ served hasRealm hasNonce, Option.map_some]
  constructor
  · intro follows
    have constant := follows fun _ => []
    have accepted : ((slotsOf params).qop.any fun qop => !strncasecmpEq qop (ascii "auth") 5) =
        false := by
      refine Bool.eq_false_iff.mpr fun refused => ?_
      rw [(encodeParams_eq_none_iff _ _ _ _ _ _ _ _).mpr (.inr (.inr refused))] at constant
      cases constant
    rw [encodeParams_eq _ _ _ _ _ _ _ takesRealm takesNonce accepted, Option.some.injEq] at constant
    have response : (codeAnswer (fun _ => []) user passwd method uri count.toNat cnonce
        (slotsOf params) taken other).response =
        (servedAnswer (fun _ => []) user passwd method uri count cnonce params realm
          nonce).response := by
      simp [codeAnswer, servedAnswer, responseBy, rfcResponse]
    obtain ⟨realmEq, nonceEq, tail⟩ := DigestAnswer.text_injective constant rfl rfl response
      ⟨(lastValue_bytes takesRealm).2, (lastValue_bytes hasRealm).2⟩
      ⟨(lastValue_bytes takesNonce).2, (lastValue_bytes hasNonce).2⟩
    have short : ∀ qop ∈ lastValue (abbreviates "qop") params, qop.length = 4 := by
      intro qop found
      have lowered : qop.map tolower = ascii "auth" := by
        by_contra differs
        rw [qop_refused_iff.mpr ⟨qop, found, differs⟩] at accepted
        cases accepted
      have lengths := congrArg List.length lowered
      rw [List.length_map] at lengths
      rw [lengths]
      decide
    simp only [codeAnswer, servedAnswer, slotsOf, hex8_eq] at realmEq nonceEq tail
    obtain ⟨qop, given⟩ := tail_injective short tail
    refine ⟨?_, qop⟩
    simp only [List.mem_cons, List.not_mem_nil, or_false, forall_eq_or_imp, forall_eq]
    exact ⟨by rw [takesRealm, hasRealm, realmEq], by rw [takesNonce, hasNonce, nonceEq], given⟩
  · rintro ⟨same, qop⟩ hash
    simp only [List.mem_cons, List.not_mem_nil, or_false, forall_eq_or_imp, forall_eq] at same
    have accepted : ((slotsOf params).qop.any fun qop => !strncasecmpEq qop (ascii "auth") 5) =
        false := by
      refine Bool.eq_false_iff.mpr fun refused => ?_
      obtain ⟨text, found, differs⟩ := qop_refused_iff.mp refused
      rw [qop] at found
      obtain ⟨-, -, rfl⟩ := Option.map_eq_some_iff.mp found
      exact differs (by decide +kernel)
    rw [encodeParams_eq _ _ _ _ _ _ _ (same.1.trans hasRealm) (same.2.1.trans hasNonce) accepted]
    have qopEq : (slotsOf params).qop = _ := qop
    have given : (slotsOf params).opaqueText = _ := same.2.2
    rw [codeAnswer, servedAnswer, given, responseBy_eq hash qopEq, qopEq, Option.map_map, hex8_eq]
    rfl

end Follows

/-- The credentials that the code computes from a stored challenge are those of RFC 2617, with
no read behind the stored value, exactly where something follows the name of the scheme, no
abbreviated name is taken for one of the four parameters, and `qop` is `auth` alone. -/
theorem digest_followsRfc_iff (challenge : DigestChallenge) (user passwd method uri : Bytes)
    (count : UInt32) (cnonce : Bytes) :
    FollowsRfc user passwd method uri count cnonce challenge ↔
      challenge.gap ≠ [] ∧ Unambiguous challenge.params := by
  by_cases bare : challenge.gap = []
  · simp only [bare, ne_eq, not_true_eq_false, false_and, iff_false]
    intro follows
    have first := follows id
    rw [encode_bare id bare] at first
    cases first
  · simp only [FollowsRfc, encode_block _ bare, Option.some.injEq, ne_eq, bare, not_false_eq_true,
      true_and, Unambiguous]
    by_cases served : OffersDigest challenge.params
    · simp only [served, forall_const, not_true_eq_false, false_imp_iff, and_true]
      exact served_follows served
    · simp only [served, false_imp_iff, not_false_eq_true, forall_const, true_and,
        rfcAnswer_of_not_served _ served, Option.map_none, encodeParams_eq_none_iff, qop_refused_iff]
      rfl

structure QuotedFine (name value : String) : Prop where
  named : ascii name ≠ []
  nameBytes : ∀ byte ∈ ascii name,
    byte ≠ 0 ∧ byte ≠ 34 ∧ byte ≠ 44 ∧ byte ≠ 61 ∧ isspace byte = false
  valueBytes : ∀ byte ∈ ascii value, byte ≠ 0 ∧ byte ≠ 34 ∧ byte ≠ 92

def quotedParam (name value : String) (before : Bytes) (blanks : isBlank before)
    (fine : QuotedFine name value) : DigestParam :=
  { name := ascii name
    value := ascii value
    isQuoted := true
    before := before
    afterName := []
    beforeValue := []
    afterValue := []
    blanks := by simpa using blanks
    named := fine.named
    nameBytes := fine.nameBytes
    quotedBytes := fun _ => fine.valueBytes
    plainBytes := nofun }

theorem blank_nil : isBlank [] := List.forall_mem_nil _

theorem blank_space : isBlank [32] := by simp [isBlank, isspace]

theorem realm_fine : QuotedFine "realm" "r" :=
  ⟨by decide, List.all_iff_forall_prop.mp (by decide), List.all_iff_forall_prop.mp (by decide)⟩

theorem nonce_fine : QuotedFine "nonce" "n" :=
  ⟨by decide, List.all_iff_forall_prop.mp (by decide), List.all_iff_forall_prop.mp (by decide)⟩

theorem qop_fine : QuotedFine "qop" "auth,auth-int" :=
  ⟨by decide, List.all_iff_forall_prop.mp (by decide), List.all_iff_forall_prop.mp (by decide)⟩

theorem blank_spaces : isBlank ([32] ++ [32]) := by simp [isBlank, isspace]

theorem isScheme_digest : (ascii "Digest").map tolower = ascii "digest" := by decide +kernel

theorem gap_ne_nil {params : List DigestParam} : params ≠ [] → ([32] : Bytes) ≠ [] := by simp

def listedQop : DigestChallenge :=
  { header := authRequestHeader
    blank := [32]
    scheme := ascii "Digest"
    gap := [32]
    params := [quotedParam "realm" "r" [] blank_nil realm_fine,
      quotedParam "nonce" "n" [32] blank_space nonce_fine,
      quotedParam "qop" "auth,auth-int" [32] blank_space qop_fine]
    isHeader := rfl
    blanks := blank_spaces
    isScheme := isScheme_digest
    separated := gap_ne_nil }

/-- A proxy that offers `auth-int` beside `auth` gets no credentials. -/
theorem listed_qop_refused :
    ¬FollowsRfc (ascii "user") (ascii "pass") (ascii "CONNECT") (ascii "10.0.0.1:80") 1
      (ascii "c") listedQop := by
  intro follows
  have constant := follows fun _ => []
  have refused : digestAuthenticationEncodeAt (fun _ => []) (ascii "user") (ascii "pass")
      (ascii "CONNECT") (ascii "10.0.0.1:80") (1 : UInt32).toNat (ascii "c")
      (listedQop.block.drop 7) = some none := by
    decide +kernel
  have answered : (rfcAnswer (fun _ => []) (ascii "user") (ascii "pass") (ascii "CONNECT")
      (ascii "10.0.0.1:80") 1 (ascii "c") listedQop.params).isSome = true := by
    decide +kernel
  rw [refused, Option.some.injEq, eq_comm, Option.map_eq_none_iff] at constant
  rw [constant] at answered
  cases answered

end ProxySet
