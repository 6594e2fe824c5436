import ProxySet.Droid.BypassList

/-!
The text that the addresses to bypass are stored in: what `encodeAddrs` and `decodeAddrs` of
`Profile` keep of a list of entries.
-/

namespace ProxySet.Droid.BypassList

def NumberUpTo (bound : Nat) (part : Bytes) : Prop :=
  part ≠ [] ∧ part.all isdigit = true ∧ valueIn 10 part ≤ bound

def QuadInRange (text : Bytes) : Prop :=
  ∃ part : Fin 4 → Bytes, text = [46].intercalate (List.ofFn part) ∧
    ∀ index, NumberUpTo 255 (part index)

def InRange (addr : Bytes) : Prop :=
  QuadInRange addr ∨
    ∃ quad bits, addr = quad ++ 47 :: bits ∧ QuadInRange quad ∧ NumberUpTo 32 bits

section

variable (getHostAddress : Bytes → Option Bytes)

/-- The entries are stored without an exception, found again, stored the same way again, and
usable in a rule. -/
def Kept (addrs : List Bytes) : Prop :=
  ∃ stored, encodeAddrs getHostAddress addrs = some stored ∧
    decodeAddrs getHostAddress stored = addrs.filterMap (validateAddr getHostAddress) ∧
    encodeAddrs getHostAddress (decodeAddrs getHostAddress stored) = some stored ∧
    ∀ addr ∈ decodeAddrs getHostAddress stored, InRange addr

/-- The entry has a name that the resolver knows, and the address text has the shape asked for. -/
def ResolvesTo (entry text : Bytes) : Prop :=
  ¬Dotted entry ∧ getHostAddress entry = some text ∧ isDottedQuad text = true

/-- The entries of which `Kept` holds; the empty text is resolved like any other. -/
def Keepable (addrs : List Bytes) : Prop :=
  if addrs = [] then ∀ text, ¬ResolvesTo getHostAddress [] text
  else (∃ entry ∈ addrs, Dotted entry ∨ ∃ text, ResolvesTo getHostAddress entry text) ∧
    ∀ entry ∈ addrs, (Dotted entry → InRange entry) ∧
      ∀ text, ResolvesTo getHostAddress entry text → InRange text

end

variable {getHostAddress : Bytes → Option Bytes}

theorem validateAddr_eq_some_iff {entry addr : Bytes} :
    validateAddr getHostAddress entry = some addr ↔
      Dotted entry ∧ addr = entry ∨ ResolvesTo getHostAddress entry addr := by
  by_cases dotted : Dotted entry
  · rw [validateAddr_dotted dotted, Option.some.injEq]
    constructor
    · intro same
      exact .inl ⟨dotted, same.symm⟩
    · rintro (⟨-, same⟩ | resolved)
      · exact same.symm
      · exact absurd dotted resolved.1
  · have plain : ¬(isDottedRange entry || isDottedQuad entry) = true := dotted
    rw [validateAddr, if_neg plain, Option.filter_eq_some_iff]
    constructor
    · intro resolved
      exact .inr ⟨dotted, resolved⟩
    · rintro (⟨isDotted, -⟩ | resolved)
      · exact absurd isDotted dotted
      · exact resolved.2

theorem not_dotted_nil : ¬Dotted [] :=
  fun dotted => dotted_ne_nil dotted rfl

theorem dotted_valid (addrs : List Bytes) :
    ∀ addr ∈ addrs.filterMap (validateAddr getHostAddress), Dotted addr := by
  intro addr member
  obtain ⟨entry, -, valid⟩ := List.mem_filterMap.mp member
  exact dotted_of_validateAddr valid

theorem valid_ne_nil_iff (addrs : List Bytes) :
    addrs.filterMap (validateAddr getHostAddress) ≠ [] ↔
      ∃ entry ∈ addrs, Dotted entry ∨ ∃ text, ResolvesTo getHostAddress entry text := by
  constructor
  · intro spoken
    obtain ⟨addr, member⟩ := List.exists_mem_of_ne_nil _ spoken
    obtain ⟨entry, listed, valid⟩ := List.mem_filterMap.mp member
    rcases validateAddr_eq_some_iff.mp valid with ⟨dotted, -⟩ | resolved
    · exact ⟨entry, listed, .inl dotted⟩
    · exact ⟨entry, listed, .inr ⟨addr, resolved⟩⟩
  · rintro ⟨entry, listed, dotted | ⟨text, resolved⟩⟩
    · have valid := @validateAddr_dotted getHostAddress entry dotted
      exact List.ne_nil_of_mem (List.mem_filterMap.mpr ⟨entry, listed, valid⟩)
    · have valid := validateAddr_eq_some_iff.mpr (.inr resolved)
      exact List.ne_nil_of_mem (List.mem_filterMap.mpr ⟨entry, listed, valid⟩)

theorem valid_inRange_iff (addrs : List Bytes) :
    (∀ addr ∈ addrs.filterMap (validateAddr getHostAddress), InRange addr) ↔
      ∀ entry ∈ addrs, (Dotted entry → InRange entry) ∧
        ∀ text, ResolvesTo getHostAddress entry text → InRange text := by
  constructor
  · intro all entry listed
    have found {addr : Bytes} (valid : validateAddr getHostAddress entry = some addr) :
        InRange addr := all addr (List.mem_filterMap.mpr ⟨entry, listed, valid⟩)
    refine ⟨fun dotted => found (validateAddr_dotted dotted), fun text resolved => ?_⟩
    exact found (validateAddr_eq_some_iff.mpr (.inr resolved))
  · intro all addr member
    obtain ⟨entry, listed, valid⟩ := List.mem_filterMap.mp member
    obtain ⟨asItIs, resolves⟩ := all entry listed
    rcases validateAddr_eq_some_iff.mp valid with ⟨dotted, rfl⟩ | resolved
    · exact asItIs dotted
    · exact resolves addr resolved

theorem kept_nil_iff : Kept getHostAddress [] ↔ ∀ text, ¬ResolvesTo getHostAddress [] text := by
  constructor
  · rintro ⟨stored, encoded, decoded, -⟩ text resolved
    obtain rfl : [] = stored := Option.some.inj encoded
    have valid : validateAddr getHostAddress [] = some text :=
      validateAddr_eq_some_iff.mpr (.inr resolved)
    simp [decodeAddrs, splitList, valid] at decoded
  · intro unresolved
    have invalid : validateAddr getHostAddress [] = none := by
      rw [Option.eq_none_iff_forall_ne_some]
      intro text valid
      rcases validateAddr_eq_some_iff.mp valid with ⟨dotted, -⟩ | resolved
      · exact not_dotted_nil dotted
      · exact unresolved text resolved
    have decoded : decodeAddrs getHostAddress [] = [] := by simp [decodeAddrs, splitList, invalid]
    refine ⟨[], rfl, decoded, ?_, ?_⟩
    · rw [decoded]
      rfl
    · rw [decoded]
      exact fun addr member => by cases member

theorem kept_iff (addrs : List Bytes) :
    Kept getHostAddress addrs ↔ Keepable getHostAddress addrs := by
  by_cases empty : addrs = []
  · rw [empty, kept_nil_iff, Keepable, if_pos rfl]
  · rw [Keepable, if_neg empty, ← valid_ne_nil_iff, ← valid_inRange_iff]
    have dotted := @dotted_valid getHostAddress addrs
    constructor
    · rintro ⟨stored, encoded, decoded, -, usable⟩
      rw [encodeAddrs, if_neg empty] at encoded
      rw [decoded] at usable
      refine ⟨fun none => ?_, usable⟩
      simp only [if_pos none] at encoded
      cases encoded
    · rintro ⟨spoken, usable⟩
      have decoded := @decodeAddrs_encoded getHostAddress _ dotted spoken
      refine ⟨_, ?_, decoded, ?_, ?_⟩
      · rw [encodeAddrs, if_neg empty]
        exact if_neg spoken
      · rw [decoded]
        exact encodeAddrs_dotted dotted
      · rw [decoded]
        exact usable

/-- One entry, which no resolver knows: there is no bar to cut off. -/
theorem unknown_name_not_kept : ¬Kept (fun _ => none) [ascii "intranet"] := by
  rintro ⟨stored, encoded, -⟩
  have throws : encodeAddrs (fun _ => none) [ascii "intranet"] = none := by decide +kernel
  rw [throws] at encoded
  cases encoded

end ProxySet.Droid.BypassList
