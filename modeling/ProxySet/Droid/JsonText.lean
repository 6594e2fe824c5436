import ProxySet.Droid.Settings

/-!
The texts that json-simple prints for profiles, in the order of its hash map, and a reader
of these texts.
-/

namespace ProxySet.Droid

namespace JsonText

inductive Value where
  | null
  | text (value : Bytes)
  | flag (value : Bool)
  | number (value : Int)

def escapes : List (UInt8 × UInt8) :=
  [(34, 34), (92, 92), (8, 98), (12, 102), (10, 110), (13, 114), (9, 116), (47, 47)]

def escapeByte (byte : UInt8) : Bytes :=
  match escapes.find? fun pair => pair.1 = byte with
  | some pair => [92, pair.2]
  | none => [byte]

def unescapeByte (short : UInt8) : UInt8 :=
  match escapes.find? fun pair => pair.2 = short with
  | some pair => pair.1
  | none => short

def print : Value → Bytes
  | .null => ascii "null"
  | .text value => 34 :: value.flatMap escapeByte ++ [34]
  | .flag true => ascii "true"
  | .flag false => ascii "false"
  | .number value => integerText value

def readText : Bytes → Option (Bytes × Bytes)
  | [] => none
  | 34 :: rest => some ([], rest)
  | 92 :: short :: rest =>
      (readText rest).map fun read => (unescapeByte short :: read.1, read.2)
  | byte :: rest => (readText rest).map fun read => (byte :: read.1, read.2)

def isNumberByte (byte : UInt8) : Bool :=
  byte = 45 || isdigit byte

def readNumber (digits : Bytes) : Int :=
  if digits.head? = some 45 then -valueIn 10 (digits.drop 1) else valueIn 10 digits

def readValue (input : Bytes) : Option (Value × Bytes) :=
  match input.head? with
  | some 34 => (readText (input.drop 1)).map fun read => (.text read.1, read.2)
  | some 110 => some (.null, input.drop 4)
  | some 116 => some (.flag true, input.drop 4)
  | some 102 => some (.flag false, input.drop 5)
  | _ => some (.number (readNumber (input.takeWhile isNumberByte)), input.dropWhile isNumberByte)

def Delimited (rest : Bytes) : Prop :=
  ∃ byte later, rest = byte :: later ∧ isNumberByte byte = false

theorem unescapeByte_escapes : ∀ pair ∈ escapes, unescapeByte pair.2 = pair.1 := by
  intro pair member
  have listed : escapes.all (fun pair => unescapeByte pair.2 == pair.1) = true := by decide
  exact eq_of_beq (List.all_eq_true.mp listed pair member)

theorem readText_escapeByte (byte : UInt8) (rest : Bytes) :
    readText (escapeByte byte ++ rest) =
      (readText rest).map fun read => (byte :: read.1, read.2) := by
  rw [escapeByte]
  cases found : escapes.find? fun pair => pair.1 = byte with
  | some pair =>
      have same : pair.1 = byte := by simpa using List.find?_some found
      have back := unescapeByte_escapes pair (List.mem_of_find?_eq_some found)
      simp only [List.cons_append, List.nil_append, readText, back, same]
  | none =>
      have plain : byte ≠ 34 ∧ byte ≠ 92 := by
        constructor
        · rintro rfl
          cases found
        · rintro rfl
          cases found
      simp only [List.cons_append, List.nil_append]
      rw [readText]
      · exact plain.1
      · exact fun _ _ same => absurd same plain.2

theorem readText_escape (value rest : Bytes) :
    readText (value.flatMap escapeByte ++ 34 :: rest) = some (value, rest) := by
  induction value with
  | nil => rfl
  | cons byte value ih =>
      rw [List.flatMap_cons, List.append_assoc, readText_escapeByte, ih]
      rfl

theorem integerText_numberBytes (value : Int) :
    ∀ byte ∈ integerText value, isNumberByte byte = true := by
  have digits : ∀ byte ∈ decimal value.natAbs, isNumberByte byte = true := by
    intro byte member
    rw [isNumberByte, decimal_isdigit _ byte member, Bool.or_true]
  rw [integerText]
  split
  · intro byte member
    rcases List.mem_cons.mp member with rfl | later
    · rfl
    · exact digits byte later
  · exact digits

theorem integerText_ne_nil (value : Int) : integerText value ≠ [] := by
  rw [integerText]
  split
  · exact List.cons_ne_nil _ _
  · exact decimal_ne_nil _

theorem readNumber_integerText (value : Int) : readNumber (integerText value) = value := by
  rw [readNumber, integerText]
  by_cases negative : value < 0
  · simp only [if_pos negative, List.head?_cons, if_true, List.drop_one, List.tail_cons,
      valueIn_decimal]
    omega
  · rw [if_neg negative, if_neg (decimal_unsigned _).1, valueIn_decimal]
    omega

theorem readValue_number (value : Int) {rest : Bytes} (delimited : Delimited rest) :
    readValue (integerText value ++ rest) = some (.number value, rest) := by
  obtain ⟨next, later, rfl, ends⟩ := delimited
  have bytes := integerText_numberBytes value
  have spanned : (integerText value ++ next :: later).takeWhile isNumberByte = integerText value := by
    rw [List.takeWhile_append_of_pos bytes, List.takeWhile_cons_of_neg (by simp [ends]),
      List.append_nil]
  have left : (integerText value ++ next :: later).dropWhile isNumberByte = next :: later := by
    rw [List.dropWhile_append_of_pos bytes, List.dropWhile_cons_of_neg (by simp [ends])]
  obtain ⟨first, others, shape⟩ := List.exists_cons_of_ne_nil (integerText_ne_nil value)
  have firstByte : isNumberByte first = true := bytes first (by simp [shape])
  have head : (integerText value ++ next :: later).head? = some first := by simp [shape]
  have other : ∀ byte : UInt8, isNumberByte byte = false → some first ≠ some byte := by
    intro byte none same
    rw [Option.some.inj same, none] at firstByte
    cases firstByte
  rw [readValue, head]
  split
  · exact absurd ‹_› (other 34 (by decide))
  · exact absurd ‹_› (other 110 (by decide))
  · exact absurd ‹_› (other 116 (by decide))
  · exact absurd ‹_› (other 102 (by decide))
  · rw [spanned, left, readNumber_integerText]

theorem readValue_print (value : Value) {rest : Bytes} (delimited : Delimited rest) :
    readValue (print value ++ rest) = some (value, rest) := by
  cases value with
  | null => rfl
  | text value =>
      have read := readText_escape value rest
      simp only [print, readValue, List.cons_append, List.head?_cons, List.drop_one,
        List.tail_cons, List.append_assoc, List.nil_append, read, Option.map_some]
  | flag value =>
      cases value with
      | true => rfl
      | false => rfl
  | number value => exact readValue_number value delimited

/-! ### Objects -/

/-- The keys in the order in which the hash map lists them. -/
def keys : List Bytes :=
  [ascii "Proxyed", ascii "proxyType", ascii "certificate", ascii "bypassAddrs",
    ascii "isAutoSetProxy", ascii "ssid", ascii "isAutoConnect", ascii "password", ascii "isAuth",
    ascii "isBypassApps", ascii "isPAC", ascii "port", ascii "domain", ascii "isNTLM",
    ascii "name", ascii "host", ascii "user", ascii "isDNSProxy"]

def ofText (member : Option Bytes) : Value :=
  member.elim .null .text

def ofFlag (member : Option Bool) : Value :=
  member.elim .null .flag

def ofNumber (member : Option Int) : Value :=
  member.elim .null .number

def Value.getText : Value → Option Bytes
  | .text value => some value
  | _ => none

def Value.getFlag : Value → Option Bool
  | .flag value => some value
  | _ => none

def Value.getNumber : Value → Option Int
  | .number value => some value
  | _ => none

def members (object : JsonObject) : List Value :=
  [ofText object.proxyed, ofText object.proxyType, ofText object.certificate,
    ofText object.bypassAddrs, ofFlag object.isAutoSetProxy, ofText object.ssid,
    ofFlag object.isAutoConnect, ofText object.password, ofFlag object.isAuth,
    ofFlag object.isBypassApps, ofFlag object.isPAC, ofNumber object.port, ofText object.domain,
    ofFlag object.isNTLM, ofText object.name, ofText object.host, ofText object.user,
    ofFlag object.isDNSProxy]

def ofMembers : List Value → Option JsonObject
  | [proxyed, proxyType, certificate, bypassAddrs, isAutoSetProxy, ssid, isAutoConnect, password,
      isAuth, isBypassApps, isPAC, port, domain, isNTLM, name, host, user, isDNSProxy] =>
      some {
        name := name.getText
        ssid := ssid.getText
        host := host.getText
        proxyType := proxyType.getText
        user := user.getText
        password := password.getText
        domain := domain.getText
        certificate := certificate.getText
        bypassAddrs := bypassAddrs.getText
        proxyed := proxyed.getText
        isAuth := isAuth.getFlag
        isNTLM := isNTLM.getFlag
        isAutoConnect := isAutoConnect.getFlag
        isAutoSetProxy := isAutoSetProxy.getFlag
        isBypassApps := isBypassApps.getFlag
        isDNSProxy := isDNSProxy.getFlag
        isPAC := isPAC.getFlag
        port := port.getNumber }
  | _ => none

def printMember (opens : UInt8) (key : Bytes) (value : Value) : Bytes :=
  [opens, 34] ++ key ++ [34, 58] ++ print value

def printMembers (opens : UInt8) : List Bytes → List Value → Bytes
  | key :: keys, value :: values => printMember opens key value ++ printMembers 44 keys values
  | _, _ => [125]

def readMembers : List Bytes → Bytes → Option (List Value)
  | [], input => if input = [125] then some [] else none
  | key :: keys, input =>
      (readValue (input.drop (key.length + 4))).bind fun read =>
        (readMembers keys read.2).map (read.1 :: ·)

theorem printMembers_delimited (keys : List Bytes) (values : List Value) :
    Delimited (printMembers 44 keys values) := by
  unfold printMembers
  split
  · exact ⟨44, _, rfl, rfl⟩
  · exact ⟨125, [], rfl, rfl⟩

theorem readMembers_print (opens : UInt8) (keys : List Bytes) (values : List Value)
    (same : keys.length = values.length) :
    readMembers keys (printMembers opens keys values) = some values := by
  induction keys generalizing opens values with
  | nil =>
      obtain rfl : values = [] := List.length_eq_zero_iff.mp same.symm
      rfl
  | cons key keys ih =>
      cases values with
      | nil => cases same
      | cons value values =>
          have skipped : (printMember opens key value ++ printMembers 44 keys values).drop
              (key.length + 4) = print value ++ printMembers 44 keys values := by
            rw [printMember, List.append_assoc]
            exact List.drop_left' (by simp)
          rw [printMembers, readMembers, skipped,
            readValue_print value (printMembers_delimited keys values), Option.bind_some,
            ih 44 values (by simpa using same)]
          rfl

theorem getText_ofText (member : Option Bytes) : (ofText member).getText = member := by
  cases member <;> rfl

theorem getFlag_ofFlag (member : Option Bool) : (ofFlag member).getFlag = member := by
  cases member <;> rfl

theorem getNumber_ofNumber (member : Option Int) : (ofNumber member).getNumber = member := by
  cases member <;> rfl

theorem ofMembers_members (object : JsonObject) : ofMembers (members object) = some object := by
  simp only [members, ofMembers, getText_ofText, getFlag_ofFlag, getNumber_ofNumber]

end JsonText

open JsonText

def Json.simple : Json where
  toJSONString := fun object => printMembers 123 keys (members object)
  parse := fun input => (readMembers keys input).bind ofMembers

theorem Json.simple_lawful : Json.simple.Lawful where
  parse_print := by
    intro object
    simp only [Json.simple, readMembers_print 123 keys (members object) rfl, Option.bind_some,
      ofMembers_members]
  print_ne_nil := by
    intro object
    simp [Json.simple, keys, members, printMembers, printMember]
  parse_nil := by decide

end ProxySet.Droid
