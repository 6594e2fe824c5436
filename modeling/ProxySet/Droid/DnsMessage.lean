import ProxySet.Droid.DnsCore
import ProxySet.Lib.DnsFormat

/-!
The answers that `DNSProxy` makes up, as messages of RFC 1035: a valid query is copied
from its question to its end, and one address record is appended to it.
-/

namespace ProxySet.Droid.Dns

open DnsFormat

/-- A query of RFC 1035 that fits the buffer of `DNSProxy.run`: one question, and records in
no other section than the additional one. -/
structure ValidQuery where
  packet : Bytes
  message : DnsFormat.Message
  reads : readMessage packet = some message
  short : packet.length ≤ 576
  asks : message.isResponse = false
  one : message.questions.length = 1
  noAnswers : message.answers = []
  noAuthorities : message.authorities = []

/-- A response that a resolver takes for an answer to the query with this address. -/
structure IsAnswer (query : DnsFormat.Message) (address : Bytes)
    (response : DnsFormat.Message) : Prop where
  responds : response.isResponse = true
  id : response.id = query.id
  questions : response.questions = query.questions
  address : ∃ answer ∈ response.answers, ∃ question ∈ query.questions,
    answer.name = question.name ∧ answer.rtype = 1 ∧ answer.rclass = 1 ∧ answer.rdata = address

/-- The answer that is made up can be read to its end, and answers the query. -/
def ValidQuery.AnsweredWell (query : ValidQuery) (address : Bytes) : Prop :=
  ∃ packet response, createDNSResponse query.packet (some address) = some packet ∧
    readMessage packet = some response ∧ IsAnswer query.message address response

/-! ### The parts of a query -/

structure QueryParts (query : ValidQuery) (header body behind : Bytes) (name : Wire)
    (kind : Nat × Nat) : Prop where
  packet : query.packet = header ++ body
  size : header.length = 12
  id : header.take 2 = [query.message.id.1, query.message.id.2]
  count : (header.drop 4).take 2 = [0, 1]
  entry : wireEntry questionFields body = some ((name, kind), behind)
  plain : name.pointer = none
  bounded : nameLength name.labels ≤ 255
  questions : query.message.questions = [⟨name.labels, kind.1, kind.2⟩]
  more : query.message.additionals = [] ∧ behind = [] ∨
    query.message.additionals ≠ [] ∧ ∃ entry rest, wireEntry recordFields behind = some (entry, rest)

theorem ValidQuery.parts (query : ValidQuery) :
    ∃ header body behind name kind, QueryParts query header body behind name kind := by
  obtain ⟨packet, message, reads, short, asks, one, noAnswers, noAuthorities⟩ := query
  unfold readMessage at reads
  split at reads
  case h_2 => cases reads
  case h_1 i1 i0 f1 f0 q1 q0 a1 a0 n1 n0 r1 r0 body =>
    obtain ⟨⟨sections, left⟩, read, whole⟩ := Option.bind_eq_some_iff.mp reads
    split at whole
    case isFalse => cases whole
    case isTrue none =>
      obtain rfl := Option.some.inj whole
      obtain ⟨⟨questions, behind⟩, asked, read⟩ := Option.bind_eq_some_iff.mp read
      obtain ⟨⟨answers, behindAnswers⟩, answered, read⟩ := Option.bind_eq_some_iff.mp read
      obtain ⟨⟨authorities, behindAuthorities⟩, authorised, read⟩ :=
        Option.bind_eq_some_iff.mp read
      obtain ⟨⟨additionals, last⟩, added, same⟩ := Option.map_eq_some_iff.mp read
      cases same
      subst none
      dsimp only at one noAnswers noAuthorities answered authorised added
      subst noAnswers noAuthorities
      have counts := readMany_length asked
      rw [one] at counts
      rw [← readMany_length answered] at answered
      rw [← readMany_length authorised] at authorised
      cases answered
      cases authorised
      obtain ⟨rfl, rfl⟩ := word_eq_one counts.symm
      rw [← counts] at asked
      obtain ⟨question, first, rfl⟩ := readMany_one asked
      obtain ⟨⟨⟨name, kind⟩, rest⟩, entry, named⟩ := Option.bind_eq_some_iff.mp first
      obtain ⟨full, found, same⟩ := Option.map_eq_some_iff.mp named
      cases same
      obtain ⟨expanded, bounded⟩ := Option.filter_eq_some_iff.mp found
      have start : (i1 :: i0 :: f1 :: f0 :: 0 :: 1 :: a1 :: a0 :: n1 :: n0 :: r1 :: r0 :: body).length -
          body.length = 12 := by
        simp only [List.length_cons]
        omega
      rw [start] at expanded
      obtain ⟨plain, rfl⟩ := expand_first expanded
      refine ⟨[i1, i0, f1, f0, 0, 1, a1, a0, n1, n0, r1, r0], body, rest, name, kind, rfl, rfl,
        rfl, rfl, entry, plain, of_decide_eq_true bounded, rfl, ?_⟩
      cases number : word r1 r0 with
      | zero =>
          rw [number] at added
          cases added
          exact .inl ⟨rfl, rfl⟩
      | succ count =>
          rw [number] at added
          obtain ⟨⟨record, left⟩, recorded, others⟩ := Option.bind_eq_some_iff.mp added
          obtain ⟨others, -, same⟩ := Option.map_eq_some_iff.mp others
          obtain ⟨rfl, -⟩ := Prod.mk.inj same
          obtain ⟨⟨entry, behindEntry⟩, wired, -⟩ := Option.bind_eq_some_iff.mp recorded
          exact .inr ⟨by simp, entry, behindEntry, wired⟩

/-! ### The response -/

section Response

variable {query : ValidQuery} {header body behind : Bytes} {name : Wire} {kind : Nat × Nat}

def responseHeader (query : ValidQuery) : Bytes :=
  [query.message.id.1, query.message.id.2, 0x81, 0x80, 0, 1, 0, 1, 0, 0, 0, 0]

theorem QueryParts.response (parts : QueryParts query header body behind name kind)
    (a b c d : UInt8) :
    createDNSResponse query.packet (some [a, b, c, d]) =
      some (responseHeader query ++ (body ++ (dnsPayload ++ [a, b, c, d]))) := by
  have short := query.short
  have room : 12 ≤ query.packet.length ∧
      query.packet.length + dnsPayload.length + [a, b, c, d].length ≤ 1024 := by
    have payload : dnsPayload.length = 12 := rfl
    have size := parts.size
    rw [parts.packet, List.length_append] at short ⊢
    simp only [List.length_cons, List.length_nil, payload]
    omega
  have size := parts.size
  rw [createDNSResponse, if_pos room, parts.packet, List.take_append_of_le_length (by omega),
    List.drop_append_of_le_length (by omega),
    List.take_append_of_le_length (by rw [List.length_drop]; omega), parts.id, parts.count,
    List.drop_left' size]
  simp [responseHeader]

theorem QueryParts.reads (parts : QueryParts query header body behind name kind) (tail : Bytes) :
    readQuestion (responseHeader query ++ (body ++ tail)) (body ++ tail) =
      some (⟨name.labels, kind.1, kind.2⟩, behind ++ tail) := by
  rw [readQuestion, wireEntry_append questionFields_append parts.entry, Option.bind_some, fullName,
    expand_unpointed parts.plain, Option.filter_some, if_pos (decide_eq_true parts.bounded),
    Option.map_some]

theorem QueryParts.readMessage (parts : QueryParts query header body behind name kind)
    (tail : Bytes) :
    readMessage (responseHeader query ++ (body ++ tail)) =
      (readRecord (responseHeader query ++ (body ++ tail)) (behind ++ tail)).bind fun answer =>
        if answer.2 = [] then
          some ⟨query.message.id, (0x81, 0x80), query.message.questions, [answer.1], [], []⟩
        else none := by
  have reads := parts.reads tail
  simp only [responseHeader, List.cons_append, List.nil_append] at reads ⊢
  have one : word 0 1 = 1 := rfl
  have zero : word 0 0 = 0 := rfl
  simp only [DnsFormat.readMessage, readSections, one, zero, readMany, reads, Option.bind_some,
    Option.map_some, parts.questions]
  generalize readRecord _ (behind ++ tail) = found
  cases found with
  | none => rfl
  | some answer => rfl

theorem QueryParts.readRecord (parts : QueryParts query header body behind name kind)
    (a b c d : UInt8) :
    readRecord (responseHeader query ++ (body ++ (dnsPayload ++ [a, b, c, d])))
        (dnsPayload ++ [a, b, c, d]) =
      some (⟨name.labels, 1, 1, [0, 0, 0, 0x3c], [a, b, c, d]⟩, []) := by
  obtain ⟨⟨found, left⟩, wired, valued⟩ := Option.bind_eq_some_iff.mp parts.entry
  obtain ⟨fields, -, same⟩ := Option.map_eq_some_iff.mp valued
  obtain rfl : found = name := congrArg (fun entry => entry.1.1) same
  have nonempty : 0 < body.length := by
    by_contra empty
    rw [Nat.eq_zero_of_not_pos empty] at wired
    cases wired
  have entry : wireEntry recordFields (dnsPayload ++ [a, b, c, d]) =
      some ((⟨[], some 12⟩, ⟨1, 1, [0, 0, 0, 0x3c], [a, b, c, d]⟩), []) := by
    simp [wireEntry, dnsPayload, wireName, recordFields, word]
  generalize tailEq : dnsPayload ++ [a, b, c, d] = tail at entry ⊢
  have lengths : (responseHeader query ++ (body ++ tail)).length =
      12 + body.length + tail.length := by
    simp [responseHeader]
    omega
  have drop : (responseHeader query ++ (body ++ tail)).drop 12 = body ++ tail :=
    List.drop_left' rfl
  have again : wireName (12 + body.length + tail.length) (body ++ tail) =
      some (found, left ++ tail) := wireName_append wired (by omega) tail
  obtain ⟨fuel, fuelEq⟩ : ∃ fuel, 12 + body.length + tail.length = fuel + 1 :=
    ⟨11 + body.length + tail.length, by omega⟩
  have pointed : expand (responseHeader query ++ (body ++ tail)) (fuel + 1)
      (12 + body.length + tail.length - tail.length) ⟨[], some 12⟩ = some found.labels := by
    rw [expand]
    simp only [drop, lengths, again, Option.bind_some, expand_unpointed parts.plain,
      Option.map_some, List.nil_append]
    exact if_pos (by omega)
  rw [DnsFormat.readRecord, entry, Option.bind_some, fullName, lengths, fuelEq]
  rw [fuelEq] at pointed
  rw [pointed, Option.filter_some, if_pos (decide_eq_true parts.bounded)]
  rfl

end Response

/-- A made-up answer is a well-formed answer to the query exactly where the query ends with its
question. -/
theorem answeredWell_iff (query : ValidQuery) (a b c d : UInt8) :
    query.AnsweredWell [a, b, c, d] ↔ query.message.additionals = [] := by
  obtain ⟨header, body, behind, name, kind, parts⟩ := query.parts
  have made := parts.response a b c d
  have read := parts.readMessage (dnsPayload ++ [a, b, c, d])
  constructor
  · rintro ⟨packet, response, same, whole, -⟩
    rw [made] at same
    cases same
    rcases parts.more with ⟨none, -⟩ | ⟨-, entry, rest, wired⟩
    · exact none
    · rw [read] at whole
      obtain ⟨⟨answer, left⟩, recorded, ended⟩ := Option.bind_eq_some_iff.mp whole
      rw [readRecord, wireEntry_append recordFields_append wired, Option.bind_some] at recorded
      obtain ⟨full, -, leftEq⟩ := Option.map_eq_some_iff.mp recorded
      cases leftEq
      simp [dnsPayload] at ended
  · intro none
    have ended : behind = [] := by
      rcases parts.more with ⟨-, empty⟩ | ⟨some, -⟩
      · exact empty
      · exact absurd none some
    rw [ended, List.nil_append, parts.readRecord, Option.bind_some, if_pos rfl] at read
    refine ⟨_, _, made, read, rfl, rfl, rfl, _, List.mem_singleton_self _, ?_⟩
    rw [parts.questions]
    exact ⟨_, List.mem_singleton_self _, rfl, rfl, rfl, rfl⟩

def ednsQuery : ValidQuery where
  packet := [0, 7, 1, 0, 0, 1, 0, 0, 0, 0, 0, 1, 1, 97, 0, 0, 1, 0, 1, 0, 0, 41, 4, 208, 0, 0, 0, 0,
    0, 0]
  message := ⟨(0, 7), (1, 0), [⟨[[97]], 1, 1⟩], [], [], [⟨[], 41, 1232, [0, 0, 0, 0], []⟩]⟩
  reads := by decide +kernel
  short := by decide
  asks := rfl
  one := rfl
  noAnswers := rfl
  noAuthorities := rfl

theorem edns_answer_malformed : ¬ednsQuery.AnsweredWell [10, 0, 0, 1] := by
  rintro ⟨packet, response, made, read, -⟩
  have unread : (createDNSResponse ednsQuery.packet (some [10, 0, 0, 1])).bind readMessage = none := by
    decide +kernel
  rw [made, Option.bind_some, read] at unread
  cases unread

end ProxySet.Droid.Dns
