import Mathlib.Algebra.GroupWithZero.Nat
import Mathlib.Data.List.Basic

/-!
Messages of the domain name system (RFC 1035): a reader for whole messages, names with
their pointers included, and what it makes of a message that has bytes appended to it.
-/

namespace DnsFormat

def word (high low : UInt8) : Nat :=
  high.toNat * 256 + low.toNat

/-! ### Names -/

/-- A name as it stands in a message: labels, and where it goes on if not here. -/
structure Wire where
  labels : List (List UInt8)
  pointer : Option Nat

def wireName : Nat → List UInt8 → Option (Wire × List UInt8)
  | 0, _ => none
  | _ + 1, [] => none
  | fuel + 1, size :: rest =>
      if size = 0 then some (⟨[], none⟩, rest)
      else if size < 64 then
        if size.toNat ≤ rest.length then
          (wireName fuel (rest.drop size.toNat)).map fun found =>
            (⟨rest.take size.toNat :: found.1.labels, found.1.pointer⟩, found.2)
        else none
      else if size < 192 then none
      else rest.head?.map fun low => (⟨[], some (word (size - 192) low)⟩, rest.tail)

/-- A pointer goes back to a name that begins before the part it ends. -/
def expand (message : List UInt8) : Nat → Nat → Wire → Option (List (List UInt8))
  | fuel, start, name =>
      match name.pointer with
      | none => some name.labels
      | some target =>
          match fuel with
          | 0 => none
          | fuel + 1 =>
              if 12 ≤ target ∧ target < start then
                (wireName message.length (message.drop target)).bind fun prior =>
                  (expand message fuel target prior.1).map (name.labels ++ ·)
              else none

def nameLength (labels : List (List UInt8)) : Nat :=
  (labels.map fun label => label.length + 1).sum + 1

def fullName (message body : List UInt8) (name : Wire) : Option (List (List UInt8)) :=
  (expand message message.length (message.length - body.length) name).filter
    (nameLength · ≤ 255)

/-! ### Questions and records -/

structure Question where
  name : List (List UInt8)
  qtype : Nat
  qclass : Nat
  deriving DecidableEq

structure Record where
  name : List (List UInt8)
  rtype : Nat
  rclass : Nat
  ttl : List UInt8
  rdata : List UInt8
  deriving DecidableEq

structure RecordFields where
  rtype : Nat
  rclass : Nat
  ttl : List UInt8
  rdata : List UInt8

def RecordFields.record (fields : RecordFields) (name : List (List UInt8)) : Record :=
  ⟨name, fields.rtype, fields.rclass, fields.ttl, fields.rdata⟩

def questionFields : List UInt8 → Option ((Nat × Nat) × List UInt8)
  | t1 :: t0 :: c1 :: c0 :: rest => some ((word t1 t0, word c1 c0), rest)
  | _ => none

def recordFields : List UInt8 → Option (RecordFields × List UInt8)
  | t1 :: t0 :: c1 :: c0 :: l3 :: l2 :: l1 :: l0 :: s1 :: s0 :: rest =>
      if word s1 s0 ≤ rest.length then
        some (⟨word t1 t0, word c1 c0, [l3, l2, l1, l0], rest.take (word s1 s0)⟩,
          rest.drop (word s1 s0))
      else none
  | _ => none

def wireEntry {Fields : Type} (fields : List UInt8 → Option (Fields × List UInt8))
    (body : List UInt8) : Option ((Wire × Fields) × List UInt8) :=
  (wireName body.length body).bind fun found =>
    (fields found.2).map fun value => ((found.1, value.1), value.2)

def readQuestion (message body : List UInt8) : Option (Question × List UInt8) :=
  (wireEntry questionFields body).bind fun found =>
    (fullName message body found.1.1).map fun name =>
      (⟨name, found.1.2.1, found.1.2.2⟩, found.2)

def readRecord (message body : List UInt8) : Option (Record × List UInt8) :=
  (wireEntry recordFields body).bind fun found =>
    (fullName message body found.1.1).map fun name => (found.1.2.record name, found.2)

def readMany {Entry : Type} (read : List UInt8 → Option (Entry × List UInt8)) :
    Nat → List UInt8 → Option (List Entry × List UInt8)
  | 0, body => some ([], body)
  | count + 1, body =>
      (read body).bind fun first =>
        (readMany read count first.2).map fun others => (first.1 :: others.1, others.2)

/-! ### Messages -/

structure Message where
  id : UInt8 × UInt8
  flags : UInt8 × UInt8
  questions : List Question
  answers : List Record
  authorities : List Record
  additionals : List Record
  deriving DecidableEq

def Message.isResponse (message : Message) : Bool :=
  decide (128 ≤ message.flags.1)

def readSections (message : List UInt8) (qdcount ancount nscount arcount : Nat)
    (body : List UInt8) :
    Option ((List Question × List Record × List Record × List Record) × List UInt8) :=
  (readMany (readQuestion message) qdcount body).bind fun questions =>
    (readMany (readRecord message) ancount questions.2).bind fun answers =>
      (readMany (readRecord message) nscount answers.2).bind fun authorities =>
        (readMany (readRecord message) arcount authorities.2).map fun additionals =>
          ((questions.1, answers.1, authorities.1, additionals.1), additionals.2)

/-- The whole message; none where it is cut short or bytes are left over. -/
def readMessage (message : List UInt8) : Option Message :=
  match message with
  | i1 :: i0 :: f1 :: f0 :: q1 :: q0 :: a1 :: a0 :: n1 :: n0 :: r1 :: r0 :: body =>
      (readSections message (word q1 q0) (word a1 a0) (word n1 n0) (word r1 r0) body).bind
        fun found =>
          if found.2 = [] then
            some ⟨(i1, i0), (f1, f0), found.1.1, found.1.2.1, found.1.2.2.1, found.1.2.2.2⟩
          else none
  | _ => none

/-! ### What has been read -/

theorem readMany_length {Entry : Type} {read : List UInt8 → Option (Entry × List UInt8)} {count : Nat}
    {body left : List UInt8} {entries : List Entry}
    (found : readMany read count body = some (entries, left)) : entries.length = count := by
  induction count generalizing body entries with
  | zero =>
      cases found
      rfl
  | succ count ih =>
      obtain ⟨first, -, others⟩ := Option.bind_eq_some_iff.mp found
      obtain ⟨rest, read, same⟩ := Option.map_eq_some_iff.mp others
      cases same
      rw [List.length_cons, ih read]

theorem readMany_one {Entry : Type} {read : List UInt8 → Option (Entry × List UInt8)}
    {body left : List UInt8} {entries : List Entry}
    (found : readMany read 1 body = some (entries, left)) :
    ∃ entry, read body = some (entry, left) ∧ entries = [entry] := by
  obtain ⟨⟨entry, rest⟩, first, others⟩ := Option.bind_eq_some_iff.mp found
  obtain ⟨none, nothing, same⟩ := Option.map_eq_some_iff.mp others
  cases nothing
  cases same
  exact ⟨entry, first, rfl⟩

theorem word_eq_one {high low : UInt8} (one : word high low = 1) : high = 0 ∧ low = 1 := by
  unfold word at one
  constructor
  · apply UInt8.toNat_inj.mp
    rw [UInt8.toNat_zero]
    omega
  · apply UInt8.toNat_inj.mp
    rw [UInt8.toNat_one]
    omega

theorem expand_first {message : List UInt8} {fuel : Nat} {name : Wire} {full : List (List UInt8)}
    (found : expand message fuel 12 name = some full) :
    name.pointer = none ∧ full = name.labels := by
  unfold expand at found
  split at found
  · cases found
    exact ⟨‹_›, rfl⟩
  · split at found
    · cases found
    · rw [if_neg (by omega)] at found
      cases found

theorem expand_unpointed {message : List UInt8} {fuel start : Nat} {name : Wire}
    (plain : name.pointer = none) : expand message fuel start name = some name.labels := by
  unfold expand
  rw [plain]

/-! ### Reading with bytes appended -/

theorem wireName_append {fuel other : Nat} {body behind : List UInt8} {name : Wire}
    (read : wireName fuel body = some (name, behind)) (enough : fuel ≤ other)
    (more : List UInt8) : wireName other (body ++ more) = some (name, behind ++ more) := by
  induction fuel generalizing other body name with
  | zero => cases read
  | succ fuel ih =>
      obtain ⟨other, rfl⟩ : ∃ rest, other = rest + 1 := ⟨other - 1, by omega⟩
      cases body with
      | nil => cases read
      | cons size rest =>
          rw [wireName] at read
          rw [List.cons_append, wireName]
          by_cases zero : size = 0
          · rw [if_pos zero] at read ⊢
            cases read
            rfl
          · rw [if_neg zero] at read ⊢
            by_cases label : size < 64
            · rw [if_pos label] at read ⊢
              by_cases fits : size.toNat ≤ rest.length
              · rw [if_pos fits, Option.map_eq_some_iff] at read
                obtain ⟨⟨later, left⟩, found, same⟩ := read
                cases same
                rw [if_pos (by rw [List.length_append]; omega),
                  List.drop_append_of_le_length fits, List.take_append_of_le_length fits,
                  ih found (by omega), Option.map_some]
              · rw [if_neg fits] at read
                cases read
            · rw [if_neg label] at read ⊢
              by_cases pointer : size < 192
              · rw [if_pos pointer] at read
                cases read
              · rw [if_neg pointer] at read ⊢
                cases rest with
                | nil => cases read
                | cons low rest =>
                    cases read
                    rfl

theorem questionFields_append {behind rest : List UInt8} {value : Nat × Nat}
    (read : questionFields behind = some (value, rest)) (more : List UInt8) :
    questionFields (behind ++ more) = some (value, rest ++ more) := by
  unfold questionFields at read
  split at read
  · cases read
    rfl
  · cases read

theorem recordFields_append {behind rest : List UInt8}
    {value : RecordFields}
    (read : recordFields behind = some (value, rest)) (more : List UInt8) :
    recordFields (behind ++ more) = some (value, rest ++ more) := by
  unfold recordFields at read
  split at read
  · split at read
    · rename_i fits
      cases read
      simp only [recordFields, List.cons_append]
      rw [if_pos (by rw [List.length_append]; omega), List.take_append_of_le_length fits,
        List.drop_append_of_le_length fits]
    · cases read
  · cases read

theorem wireEntry_append {Fields : Type} {fields : List UInt8 → Option (Fields × List UInt8)}
    (stable : ∀ {behind value rest}, fields behind = some (value, rest) → ∀ more,
      fields (behind ++ more) = some (value, rest ++ more))
    {body rest : List UInt8} {entry : Wire × Fields}
    (read : wireEntry fields body = some (entry, rest)) (more : List UInt8) :
    wireEntry fields (body ++ more) = some (entry, rest ++ more) := by
  obtain ⟨⟨name, behind⟩, named, valued⟩ := Option.bind_eq_some_iff.mp read
  obtain ⟨⟨value, left⟩, found, same⟩ := Option.map_eq_some_iff.mp valued
  cases same
  have longer : body.length ≤ (body ++ more).length := by simp
  rw [wireEntry, wireName_append named longer, Option.bind_some, stable found, Option.map_some]

end DnsFormat
