import Mathlib.Data.Fin.VecNotation
import ProxySet.Droid.DnsCore

/-!
Addresses as texts: `parseIPString` on the characters of a Java string, and the text that
`DNSResponse.getIPString` makes of the packet the address has gone into.
-/

namespace ProxySet.Droid.Dns

/-! ### Strings of Java -/

abbrev JavaString := List UInt16

/-- `Character.digit(char, 10)`, which also takes the digits of other scripts. -/
structure CharTable where
  digit : UInt16 → Option Nat
  digit_lt : ∀ {char value}, digit char = some value → value < 10
  digit_ascii : ∀ char < 128,
    digit char = if 48 ≤ char ∧ char ≤ 57 then some (char.toNat - 48) else none

def numberOf (values : List Nat) : Nat :=
  values.foldl (fun number value => number * 10 + value) 0

def CharTable.parseInt (table : CharTable) (text : JavaString) : Option Int :=
  let negative := text.head? = some 45
  let digits := if negative ∨ text.head? = some 43 then text.drop 1 else text
  (digits.mapM table.digit).bind fun values =>
    let value : Int := if negative then -numberOf values else numberOf values
    if digits ≠ [] ∧ -2 ^ 31 ≤ value ∧ value < 2 ^ 31 then some value else none

def narrowed (value : Int) : UInt8 :=
  (value % 256).toNat.toUInt8

def sectionBytes (table : CharTable) (index : Nat) : List JavaString → Option Bytes
  | [] => some []
  | part :: rest =>
      match table.parseInt part with
      | none => none
      | some value =>
          if (index = 0 ∨ index = 3) ∧ value = 0 then none
          else (sectionBytes table (index + 1) rest).map (narrowed value :: ·)

/-- `parseIPString`; `split` leaves out the empty parts at the end. -/
def parseIPText (table : CharTable) (ip : JavaString) : Option Bytes :=
  let ips := (ip.splitOn 46).rdropWhile List.isEmpty
  if ips.length = 4 then sectionBytes table 0 ips else none

def decimalText (value : Nat) : JavaString :=
  (decimal value).map UInt8.toUInt16

def getIPString (dnsResponse : Bytes) : Option JavaString :=
  if dnsResponse.length < 4 then none
  else some ([46].intercalate
    ((dnsResponse.drop (dnsResponse.length - 4)).map fun byte => decimalText byte.toNat))

/-! ### Addresses -/

def decimalValue (part : JavaString) : Nat :=
  numberOf (part.map fun char => char.toNat - 48)

def IsDecimal (part : JavaString) : Prop :=
  part ≠ [] ∧ ∀ char ∈ part, 48 ≤ char ∧ char ≤ 57

/-- Four decimal numbers up to 255 with single dots between them, the first and the last not 0. -/
def IsAddress (text : JavaString) : Prop :=
  ∃ part : Fin 4 → JavaString, text = [46].intercalate (List.ofFn part) ∧
    (∀ index, IsDecimal (part index) ∧ decimalValue (part index) ≤ 255) ∧
    decimalValue (part 0) ≠ 0 ∧ decimalValue (part 3) ≠ 0

def canonical (text : JavaString) : JavaString :=
  [46].intercalate ((text.splitOn 46).map fun part => decimalText (decimalValue part))

/-- The text is taken for an address exactly if it is one, and then the packet that its bytes go
into shows it in canonical form. -/
def Survives (table : CharTable) (text : JavaString) : Prop :=
  ((parseIPText table text).isSome = true ↔ IsAddress text) ∧
    ∀ ips, parseIPText table text = some ips → ∀ quest : Bytes, 12 ≤ quest.length →
      quest.length ≤ 576 → ∃ packet, createDNSResponse quest (some ips) = some packet ∧
        getIPString packet = some (canonical text)

/-- Four `int` values with single dots between them and any number of dots behind, the first and
the last not 0. -/
structure FourNumbers (table : CharTable) (text : JavaString) (part : Fin 4 → JavaString)
    (value : Fin 4 → Int) (dots : Nat) : Prop where
  spelled : text = [46].intercalate (List.ofFn part) ++ List.replicate dots 46
  reads : ∀ index, table.parseInt (part index) = some (value index)
  first : value 0 ≠ 0
  last : value 3 ≠ 0

/-- Such numbers have no dots behind them, no sign, no digit of another script and no value over
255. -/
def Plain (table : CharTable) (text : JavaString) : Prop :=
  ∀ part value dots, FourNumbers table text part value dots →
    dots = 0 ∧ ∀ index, (∀ char ∈ part index, 48 ≤ char ∧ char ≤ 57) ∧ value index ≤ 255

/-! ### Numbers -/

section Numbers

variable {table : CharTable} {part text : JavaString} {value : Int}

theorem mapM_digit (digits : ∀ char ∈ part, 48 ≤ char ∧ char ≤ 57) :
    part.mapM table.digit = some (part.map fun char => char.toNat - 48) := by
  induction part with
  | nil => rfl
  | cons char part ih =>
      simp only [List.mem_cons, forall_eq_or_imp] at digits
      have ascii : char < 128 := UInt16.lt_of_le_of_lt digits.1.2 (by decide : (57 : UInt16) < 128)
      rw [List.mapM_cons, table.digit_ascii char ascii, if_pos digits.1, ih digits.2]
      rfl

theorem parseInt_of_isDecimal (digits : IsDecimal part) :
    table.parseInt part =
      if (decimalValue part : Int) < 2 ^ 31 then some (decimalValue part : Int) else none := by
  obtain ⟨nonempty, digits⟩ := digits
  have unsigned : part.head? ≠ some 45 ∧ part.head? ≠ some 43 := by
    cases part with
    | nil => exact absurd rfl nonempty
    | cons char part =>
        have bound := (digits char (by simp)).1
        constructor
        · intro same
          rw [List.head?_cons, Option.some.injEq] at same
          exact absurd (same ▸ bound) (by decide)
        · intro same
          rw [List.head?_cons, Option.some.injEq] at same
          exact absurd (same ▸ bound) (by decide)
  have lower : -2 ^ 31 ≤ (decimalValue part : Int) := by omega
  unfold CharTable.parseInt
  simp only [unsigned, or_self, if_false, mapM_digit digits, Option.bind_some]
  simp only [ne_eq, nonempty, not_false_eq_true, true_and]
  change (if -2 ^ 31 ≤ (decimalValue part : Int) ∧ (decimalValue part : Int) < 2 ^ 31 then _
    else _) = _
  simp only [lower, true_and]
  rfl

theorem digit_of_mapM {values : List Nat} (reads : text.mapM table.digit = some values) :
    ∀ char ∈ text, table.digit char ≠ none := by
  induction text generalizing values with
  | nil => simp
  | cons char text ih =>
      rw [List.mapM_cons] at reads
      obtain ⟨value, first, reads⟩ := Option.bind_eq_some_iff.mp reads
      obtain ⟨others, rest, -⟩ := Option.bind_eq_some_iff.mp reads
      simp only [List.mem_cons, forall_eq_or_imp]
      exact ⟨by simp [first], ih rest⟩

theorem parseInt_some (reads : table.parseInt part = some value) : part ≠ [] ∧ 46 ∉ part := by
  unfold CharTable.parseInt at reads
  obtain ⟨values, digits, kept⟩ := Option.bind_eq_some_iff.mp reads
  have nonempty := (Option.ite_none_right_eq_some.mp kept).1.1
  have dot : (46 : UInt16) ∉ if part.head? = some 45 ∨ part.head? = some 43 then part.drop 1
      else part :=
    fun member => digit_of_mapM digits 46 member (table.digit_ascii 46 (by decide))
  cases part with
  | nil => simp at nonempty
  | cons char part =>
      refine ⟨by simp, ?_⟩
      by_cases signed : (char :: part).head? = some 45 ∨ (char :: part).head? = some 43
      · rw [if_pos signed, List.drop_one, List.tail_cons] at dot
        simp only [List.head?_cons, Option.some.injEq] at signed
        intro member
        rcases List.mem_cons.mp member with same | later
        · rcases signed with minus | plus
          · exact absurd (same.trans minus) (by decide)
          · exact absurd (same.trans plus) (by decide)
        · exact dot later
      · rwa [if_neg signed] at dot

theorem sectionBytes_cons {index : Nat} {rest : List JavaString} {bytes : Bytes}
    (made : sectionBytes table index (part :: rest) = some bytes) :
    ∃ value more, table.parseInt part = some value ∧ ¬((index = 0 ∨ index = 3) ∧ value = 0) ∧
      sectionBytes table (index + 1) rest = some more ∧ bytes = narrowed value :: more := by
  rw [sectionBytes] at made
  cases reads : table.parseInt part with
  | none =>
      rw [reads] at made
      cases made
  | some value =>
      rw [reads] at made
      obtain ⟨kept, made⟩ := Option.ite_none_left_eq_some.mp made
      obtain ⟨more, rest, same⟩ := Option.map_eq_some_iff.mp made
      exact ⟨value, more, rfl, kept, rest, same.symm⟩

theorem sectionBytes_iff (part : Fin 4 → JavaString) (bytes : Bytes) :
    sectionBytes table 0 (List.ofFn part) = some bytes ↔
      ∃ value : Fin 4 → Int, (∀ index, table.parseInt (part index) = some (value index)) ∧
        value 0 ≠ 0 ∧ value 3 ≠ 0 ∧ bytes = List.ofFn fun index => narrowed (value index) := by
  have listed : List.ofFn part = [part 0, part 1, part 2, part 3] := by
    simp [List.ofFn_succ]
  rw [listed]
  constructor
  · intro made
    obtain ⟨v0, more0, reads0, first, made0, rfl⟩ := sectionBytes_cons made
    obtain ⟨v1, more1, reads1, -, made1, rfl⟩ := sectionBytes_cons made0
    obtain ⟨v2, more2, reads2, -, made2, rfl⟩ := sectionBytes_cons made1
    obtain ⟨v3, more3, reads3, last, made3, rfl⟩ := sectionBytes_cons made2
    cases made3
    refine ⟨![v0, v1, v2, v3], ?_, by simpa using first, by simpa using last, ?_⟩
    · simp [Fin.forall_fin_succ, reads0, reads1, reads2, reads3]
    · simp [List.ofFn_succ]
  · rintro ⟨value, reads, first, last, rfl⟩
    simp [sectionBytes, reads, first, last, List.ofFn_succ]

end Numbers

/-! ### Parts -/

section Parts

variable {parts : List JavaString}

theorem intercalate_concat_nil (nonempty : parts ≠ []) :
    [46].intercalate (parts ++ [[]]) = [46].intercalate parts ++ [(46 : UInt16)] := by
  induction parts with
  | nil => exact absurd rfl nonempty
  | cons part parts ih =>
      cases parts with
      | nil => simp
      | cons next parts =>
          rw [List.cons_append, List.cons_append, List.intercalate_cons_cons, ← List.cons_append,
            ih (by simp), List.intercalate_cons_cons]
          simp only [List.append_assoc]

theorem intercalate_dots (nonempty : parts ≠ []) (dots : Nat) :
    [46].intercalate (parts ++ List.replicate dots []) =
      [46].intercalate parts ++ List.replicate dots (46 : UInt16) := by
  induction dots with
  | zero => simp
  | succ dots ih =>
      rw [List.replicate_succ', List.replicate_succ', ← List.append_assoc, ← List.append_assoc,
        intercalate_concat_nil (by simp [nonempty]), ih]

theorem kept_parts (nonempty : parts ≠ []) (words : ∀ part ∈ parts, part ≠ [] ∧ 46 ∉ part)
    (dots : Nat) :
    (([46].intercalate parts ++ List.replicate dots 46).splitOn 46).rdropWhile List.isEmpty =
      parts := by
  have unmarked : ∀ part ∈ parts ++ List.replicate dots [], 46 ∉ part := by
    intro part member
    rcases List.mem_append.mp member with word | empty
    · exact (words part word).2
    · rw [List.eq_of_mem_replicate empty]
      exact List.not_mem_nil
  rw [← intercalate_dots nonempty, List.splitOn_intercalate 46 unmarked (by simp [nonempty]),
    TokenReader.rdropWhile_append_of_pos
      (fun part member => by rw [List.eq_of_mem_replicate member]; rfl)]
  refine List.rdropWhile_eq_self_iff.mpr fun _ => ?_
  rw [List.isEmpty_iff]
  exact (words _ (List.getLast_mem nonempty)).1

theorem text_of_parts {text : JavaString}
    (kept : (text.splitOn 46).rdropWhile List.isEmpty = parts) (nonempty : parts ≠ []) :
    ∃ dots, text = [46].intercalate parts ++ List.replicate dots 46 := by
  have split := List.rdropWhile_append_rtakeWhile (p := List.isEmpty) (l := text.splitOn 46)
  have empty : (text.splitOn 46).rtakeWhile List.isEmpty =
      List.replicate ((text.splitOn 46).rtakeWhile List.isEmpty).length [] := by
    refine List.eq_replicate_of_mem fun part member => ?_
    exact List.isEmpty_iff.mp (List.mem_rtakeWhile_imp member)
  rw [kept, empty] at split
  refine ⟨((text.splitOn 46).rtakeWhile List.isEmpty).length, ?_⟩
  rw [← intercalate_dots nonempty, split, List.intercalate_splitOn]

end Parts

/-! ### What is taken for an address -/

section Taken

variable {table : CharTable} {text : JavaString} {part : Fin 4 → JavaString}

theorem exists_ofFn {parts : List JavaString} (four : parts.length = 4) :
    ∃ part : Fin 4 → JavaString, parts = List.ofFn part := by
  match parts, four with
  | [p0, p1, p2, p3], _ => exact ⟨![p0, p1, p2, p3], by simp [List.ofFn_succ]⟩

theorem FourNumbers.kept {value : Fin 4 → Int} {dots : Nat}
    (four : FourNumbers table text part value dots) :
    (text.splitOn 46).rdropWhile List.isEmpty = List.ofFn part := by
  rw [four.spelled]
  refine kept_parts (by simp) ?_ dots
  intro word member
  obtain ⟨index, rfl⟩ := List.mem_ofFn.mp member
  exact parseInt_some (four.reads index)

theorem parseIPText_iff {ips : Bytes} :
    parseIPText table text = some ips ↔
      ∃ part value dots, FourNumbers table text part value dots ∧
        ips = List.ofFn fun index => narrowed (value index) := by
  unfold parseIPText
  constructor
  · intro taken
    obtain ⟨four, made⟩ := Option.ite_none_right_eq_some.mp taken
    obtain ⟨part, listed⟩ := exists_ofFn four
    rw [listed] at made
    obtain ⟨value, reads, first, last, same⟩ := (sectionBytes_iff part ips).mp made
    obtain ⟨dots, spelled⟩ := text_of_parts listed (by simp)
    exact ⟨part, value, dots, ⟨spelled, reads, first, last⟩, same⟩
  · rintro ⟨part, value, dots, four, same⟩
    rw [four.kept]
    exact (if_pos (by simp)).trans
      ((sectionBytes_iff part ips).mpr ⟨value, four.reads, four.first, four.last, same⟩)

theorem fourNumbers_of_isAddress (spelled : text = [46].intercalate (List.ofFn part))
    (decimals : ∀ index, IsDecimal (part index) ∧ decimalValue (part index) ≤ 255)
    (first : decimalValue (part 0) ≠ 0) (last : decimalValue (part 3) ≠ 0) :
    FourNumbers table text part (fun index => decimalValue (part index)) 0 where
  spelled := by rw [spelled, List.replicate_zero, List.append_nil]
  reads := by
    intro index
    have small := (decimals index).2
    rw [parseInt_of_isDecimal (decimals index).1, if_pos (by omega)]
  first := by exact_mod_cast first
  last := by exact_mod_cast last

theorem getIPString_response {quest ips : Bytes} (size : ips.length = 4) (long : 12 ≤ quest.length)
    (short : quest.length ≤ 576) :
    ∃ packet, createDNSResponse quest (some ips) = some packet ∧
      getIPString packet = some ([46].intercalate (ips.map fun byte => decimalText byte.toNat)) := by
  have room : 12 ≤ quest.length ∧ quest.length + dnsPayload.length + ips.length ≤ 1024 := by
    have payload : dnsPayload.length = 12 := rfl
    omega
  refine ⟨_, by rw [createDNSResponse, if_pos room], ?_⟩
  generalize quest.take 2 ++ [0x81, 0x80] ++ (quest.drop 4).take 2 ++ (quest.drop 4).take 2 ++
    [0, 0, 0, 0] ++ quest.drop 12 ++ dnsPayload = front
  rw [getIPString, if_neg (by rw [List.length_append]; omega), List.length_append, size,
    Nat.add_sub_cancel, List.drop_left]

theorem narrowed_natCast {value : Nat} (small : value ≤ 255) :
    (narrowed (value : Int)).toNat = value := by
  have reduced : ((value : Int) % 256).toNat = value := by omega
  rw [narrowed, reduced, Nat.toUInt8_eq, UInt8.toNat_ofNat']
  omega

theorem shown_address (spelled : text = [46].intercalate (List.ofFn part))
    (decimals : ∀ index, IsDecimal (part index) ∧ decimalValue (part index) ≤ 255) :
    [46].intercalate ((List.ofFn fun index => narrowed (decimalValue (part index) : Int)).map
      fun byte => decimalText byte.toNat) = canonical text := by
  have words : ∀ word ∈ List.ofFn part, 46 ∉ word := by
    intro word member dot
    obtain ⟨index, rfl⟩ := List.mem_ofFn.mp member
    exact absurd ((decimals index).1.2 46 dot).1 (by decide)
  rw [canonical, spelled, List.splitOn_intercalate 46 words (by simp), List.map_ofFn, List.map_ofFn]
  congr 2
  funext index
  exact congrArg decimalText (narrowed_natCast (decimals index).2)

end Taken

/-- Texts are taken for addresses as they should be, and come back from the packet, exactly where
four numbers that Java reads have nothing about them that an address has not. -/
theorem survives_iff (table : CharTable) (text : JavaString) :
    Survives table text ↔ Plain table text := by
  constructor
  · rintro ⟨taken, -⟩ part value dots four
    have accepted : (parseIPText table text).isSome = true := by
      rw [parseIPText_iff.mpr ⟨part, value, dots, four, rfl⟩]
      rfl
    obtain ⟨own, spelled, decimals, first, last⟩ := taken.mp accepted
    have other : FourNumbers table text own _ 0 :=
      fourNumbers_of_isAddress spelled decimals first last
    obtain rfl : part = own := List.ofFn_injective (four.kept.symm.trans other.kept)
    have none : dots = 0 := by
      have same := four.spelled.symm.trans spelled
      simpa using same
    refine ⟨none, fun index => ⟨(decimals index).1.2, ?_⟩⟩
    have value := (four.reads index).symm.trans (other.reads index)
    have small := (decimals index).2
    rw [Option.some.inj value]
    omega
  · intro plain
    have numbers {part : Fin 4 → JavaString} {value : Fin 4 → Int} {dots : Nat}
        (four : FourNumbers table text part value dots) :
        text = [46].intercalate (List.ofFn part) ∧
          (∀ index, IsDecimal (part index) ∧ decimalValue (part index) ≤ 255) ∧
          value = fun index => (decimalValue (part index) : Int) := by
      obtain ⟨rfl, digits⟩ := plain part value dots four
      have decimal (index : Fin 4) : IsDecimal (part index) :=
        ⟨(parseInt_some (four.reads index)).1, (digits index).1⟩
      have values (index : Fin 4) : value index = decimalValue (part index) := by
        have reads := four.reads index
        rw [parseInt_of_isDecimal (decimal index)] at reads
        exact (Option.some.inj (Option.ite_none_right_eq_some.mp reads).2).symm
      refine ⟨by simpa using four.spelled, fun index => ⟨decimal index, ?_⟩, funext values⟩
      have small := (digits index).2
      rw [values index] at small
      omega
    refine ⟨⟨?_, ?_⟩, ?_⟩
    · intro accepted
      obtain ⟨ips, taken⟩ := Option.isSome_iff_exists.mp accepted
      obtain ⟨part, value, dots, four, -⟩ := parseIPText_iff.mp taken
      obtain ⟨spelled, decimals, rfl⟩ := numbers four
      exact ⟨part, spelled, decimals, by exact_mod_cast four.first, by exact_mod_cast four.last⟩
    · rintro ⟨part, spelled, decimals, first, last⟩
      rw [parseIPText_iff.mpr ⟨part, _, 0,
        fourNumbers_of_isAddress spelled decimals first last, rfl⟩]
      rfl
    · intro ips taken quest long short
      obtain ⟨part, value, dots, four, rfl⟩ := parseIPText_iff.mp taken
      obtain ⟨spelled, decimals, rfl⟩ := numbers four
      obtain ⟨packet, made, shown⟩ := getIPString_response List.length_ofFn long short
      exact ⟨packet, made, shown.trans (congrArg some (shown_address spelled decimals))⟩


def asciiTable : CharTable where
  digit char := if 48 ≤ char ∧ char ≤ 57 then some (char.toNat - 48) else none
  digit_lt := by
    intro char value found
    obtain ⟨bounds, same⟩ := Option.ite_none_right_eq_some.mp found
    rw [UInt16.le_iff_toNat_le, UInt16.le_iff_toNat_le] at bounds
    have lower : (48 : UInt16).toNat = 48 := rfl
    have upper : (57 : UInt16).toNat = 57 := rfl
    have value := Option.some.inj same
    omega
  digit_ascii _ _ := rfl

def overlongAddress : JavaString :=
  [49, 46, 50, 46, 51, 46, 50, 53, 55]

/-- A number over 255 is taken for its last eight bits. -/
theorem overlong_address_taken : ¬Survives asciiTable overlongAddress := by
  rintro ⟨taken, -⟩
  obtain ⟨part, spelled, decimals, -, -⟩ := taken.mp (by decide +kernel)
  have words : ∀ word ∈ List.ofFn part, 46 ∉ word := by
    intro word member dot
    obtain ⟨index, rfl⟩ := List.mem_ofFn.mp member
    exact absurd ((decimals index).1.2 46 dot).1 (by decide)
  have split := congrArg (List.splitOn 46) spelled
  rw [List.splitOn_intercalate 46 words (by simp)] at split
  have last : (overlongAddress.splitOn 46)[3]? = some [50, 53, 55] := by decide +kernel
  rw [split] at last
  have same : part 3 = [50, 53, 55] := by simpa using last
  have small := (decimals 3).2
  rw [same] at small
  exact absurd small (by decide)

/-! ### Texts of ASCII -/

section Ascii

variable {table : CharTable}

theorem digit_toUInt16 {byte : UInt8} (isAscii : byte < 128) :
    table.digit byte.toUInt16 = if isdigit byte then some (byte.toNat - 48) else none := by
  have small : byte.toUInt16 < 128 := by
    rw [UInt16.lt_iff_toNat_lt]
    rw [UInt8.lt_iff_toNat_lt] at isAscii
    simpa using isAscii
  rw [table.digit_ascii _ small]
  have same : (48 ≤ byte.toUInt16 ∧ byte.toUInt16 ≤ 57) ↔ isdigit byte = true := by
    simp [isdigit, UInt16.le_iff_toNat_le, UInt8.le_iff_toNat_le]
  simp only [same, UInt8.toNat_toUInt16]

theorem mapM_digit_toUInt16 {text : Bytes} (isAscii : ∀ byte ∈ text, byte < 128) :
    (text.map UInt8.toUInt16).mapM table.digit =
      if text.all isdigit then some (text.map fun byte => byte.toNat - 48) else none := by
  induction text with
  | nil => rfl
  | cons byte text ih =>
      simp only [List.mem_cons, forall_eq_or_imp] at isAscii
      rw [List.map_cons, List.mapM_cons, digit_toUInt16 isAscii.1, ih isAscii.2]
      cases first : isdigit byte with
      | false => simp [first]
      | true =>
          cases rest : text.all isdigit with
          | false => simp [first, rest]
          | true => simp [first, rest]

theorem numberOf_eq_valueIn {digits : Bytes} (all : digits.all isdigit = true) :
    numberOf (digits.map fun byte => byte.toNat - 48) = valueIn 10 digits := by
  rw [numberOf, valueIn, List.foldl_map]
  refine List.foldl_ext _ _ _ fun number byte member => ?_
  rw [digitValue, if_pos (List.all_eq_true.mp all byte member)]

theorem parseInt_toUInt16 {part : Bytes} (isAscii : ∀ byte ∈ part, byte < 128) :
    table.parseInt (part.map UInt8.toUInt16) = integerValueOf part := by
  have minus : (part.map UInt8.toUInt16).head? = some 45 ↔ part.head? = some 45 := by
    cases part with
    | nil => simp
    | cons byte part => simp [← UInt16.toNat_inj, ← UInt8.toNat_inj]
  have plus : (part.map UInt8.toUInt16).head? = some 43 ↔ part.head? = some 43 := by
    cases part with
    | nil => simp
    | cons byte part => simp [← UInt16.toNat_inj, ← UInt8.toNat_inj]
  have dropped : (if part.head? = some 45 ∨ part.head? = some 43 then
        (part.map UInt8.toUInt16).drop 1 else part.map UInt8.toUInt16) =
      (if part.head? = some 45 ∨ part.head? = some 43 then part.drop 1 else part).map
        UInt8.toUInt16 := by
    split
    · rw [List.map_drop]
    · rfl
  unfold CharTable.parseInt integerValueOf
  simp only [minus, plus, dropped]
  have inside : ∀ byte ∈ if part.head? = some 45 ∨ part.head? = some 43 then part.drop 1 else part,
      byte < 128 := by
    intro byte member
    split at member
    · exact isAscii byte (List.mem_of_mem_drop member)
    · exact isAscii byte member
  generalize (if part.head? = some 45 ∨ part.head? = some 43 then part.drop 1 else part) = digits
    at inside
  rw [mapM_digit_toUInt16 inside]
  cases all : digits.all isdigit with
  | false => simp
  | true => simp [numberOf_eq_valueIn all]

theorem splitOn_toUInt16 (ip : Bytes) :
    (ip.map UInt8.toUInt16).splitOn 46 = (ip.splitOn 46).map (List.map UInt8.toUInt16) := by
  unfold List.splitOn
  induction ip with
  | nil => rfl
  | cons byte ip ih =>
      have same : (byte.toUInt16 == 46) = (byte == 46) := by
        rw [Bool.eq_iff_iff, beq_iff_eq, beq_iff_eq, ← UInt16.toNat_inj, ← UInt8.toNat_inj]
        simp
      rw [List.map_cons, List.splitOnP_cons_eq_if_modifyHead, List.splitOnP_cons_eq_if_modifyHead,
        same, ih]
      split
      · rfl
      · cases ip.splitOnP (· == 46) with
        | nil => rfl
        | cons part parts => rfl

theorem mem_of_mem_splitOn {text part : Bytes} {mark byte : UInt8} (listed : part ∈ text.splitOn mark)
    (member : byte ∈ part) : byte ∈ text := by
  unfold List.splitOn at listed
  induction text generalizing part with
  | nil =>
      rw [List.splitOnP_nil, List.mem_singleton] at listed
      rwa [listed] at member
  | cons first text ih =>
      rw [List.splitOnP_cons_eq_if_modifyHead] at listed
      split at listed
      · rcases List.mem_cons.mp listed with rfl | later
        · cases member
        · exact List.mem_cons_of_mem _ (ih later member)
      · cases parts : text.splitOnP (· == mark) with
        | nil => exact absurd parts (List.splitOnP_ne_nil _ _)
        | cons head parts =>
            rw [parts, List.modifyHead_cons] at listed
            rcases List.mem_cons.mp listed with rfl | later
            · rcases List.mem_cons.mp member with rfl | inside
              · exact List.mem_cons_self
              · exact List.mem_cons_of_mem _ (ih (by simp [parts]) inside)
            · exact List.mem_cons_of_mem _ (ih (by simp [parts, later]) member)

theorem sectionBytes_toUInt16 {parts : List Bytes} {index : Nat}
    (isAscii : ∀ part ∈ parts, ∀ byte ∈ part, byte < 128) :
    sectionBytes table index (parts.map (List.map UInt8.toUInt16)) = parseSections index parts := by
  induction parts generalizing index with
  | nil => rfl
  | cons part parts ih =>
      simp only [List.mem_cons, forall_eq_or_imp] at isAscii
      rw [List.map_cons, sectionBytes, parseSections, parseInt_toUInt16 isAscii.1, ih isAscii.2]
      rfl

/-- `parseIPString` of `DnsCore` is this one on a text of ASCII. -/
theorem parseIPText_toUInt16 {ip : Bytes} (isAscii : ∀ byte ∈ ip, byte < 128) :
    parseIPText table (ip.map UInt8.toUInt16) = parseIPString ip := by
  have kept : ((ip.splitOn 46).map (List.map UInt8.toUInt16)).rdropWhile List.isEmpty =
      ((ip.splitOn 46).rdropWhile List.isEmpty).map (List.map UInt8.toUInt16) := by
    have empty : List.isEmpty ∘ List.map UInt8.toUInt16 = List.isEmpty := by
      funext part
      cases part with
      | nil => rfl
      | cons byte part => rfl
    rw [List.rdropWhile, List.rdropWhile, ← List.map_reverse, List.dropWhile_map, empty,
      List.map_reverse]
  have inside : ∀ part ∈ (ip.splitOn 46).rdropWhile List.isEmpty, ∀ byte ∈ part, byte < 128 := by
    intro part listed byte member
    exact isAscii byte (mem_of_mem_splitOn ((List.rdropWhile_prefix _ _).subset listed) member)
  unfold parseIPText parseIPString
  simp only [splitOn_toUInt16, kept, List.length_map, sectionBytes_toUInt16 inside]

end Ascii

end ProxySet.Droid.Dns
