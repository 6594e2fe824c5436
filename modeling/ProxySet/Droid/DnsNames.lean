import Mathlib.Data.Bool.AllAny
import ProxySet.Droid.DnsAnswers

/-!
`getRequestDomain` and `parseDomain` of `DNSProxy` with their exceptions: the recursion is
driven by signed bytes of the packet, and what goes wrong in it is caught one call up.
-/

namespace ProxySet.Droid.Dns

/-! ### The calls -/

def byteValue (byte : UInt8) : Int :=
  if byte < 128 then byte.toNat else byte.toNat - 256

def copyOf (source : Bytes) (start length : Int) : Option Bytes :=
  if length < 0 then none
  else if start < 0 ∨ source.length < start + length then none
  else some ((source.drop start.toNat).take length.toNat)

def newStringOf (platform : Platform) (bytes : Bytes) (offset length : Int) : Option Bytes :=
  if offset < 0 ∨ length < 0 ∨ bytes.length < offset + length then none
  else some (platform.newString ((bytes.drop offset.toNat).take length.toNat))

/-- `parseDomain` in calls of at most this depth: `none` where they go deeper, `some none` where
the call throws. -/
def parseDomainCall (platform : Platform) : Nat → Bytes → Option (Option Bytes)
  | 0, _ => none
  | _ + 1, [] => some none
  | depth + 1, first :: rest =>
      let request := first :: rest
      let partLength := byteValue first
      if partLength = 0 then some (some [])
      else match copyOf request (partLength + 1) (request.length - partLength - 1) with
        | none => some (some [])
        | some left =>
            match newStringOf platform request 1 partLength with
            | none => some (some [])
            | some part =>
                (parseDomainCall platform depth left).map fun called =>
                  some (part ++ ascii "." ++ called.getD [])

def getRequestDomainCall (platform : Platform) (request : Bytes) : Option (Option Bytes) :=
  if 13 < request.length then
    (parseDomainCall platform request.length (request.drop 12)).map fun called =>
      called.map fun requestDomain =>
        if 1 < requestDomain.length then requestDomain.dropLast else requestDomain
  else some (some [])

/-! ### No call throws -/

theorem byteValue_eq_zero {byte : UInt8} : byteValue byte = 0 ↔ byte = 0 := by
  have bound : byte.toNat < 256 := byte.toNat_lt
  constructor
  · intro zero
    apply UInt8.toNat_inj.mp
    rw [UInt8.toNat_zero]
    unfold byteValue at zero
    split at zero
    · omega
    · omega
  · rintro rfl
    rfl

theorem copyOf_part {first : UInt8} {rest : Bytes} (small : first < 128)
    (fits : first.toNat ≤ rest.length) :
    copyOf (first :: rest) (byteValue first + 1) ((first :: rest).length - byteValue first - 1) =
      some (rest.drop first.toNat) := by
  have value : byteValue first = first.toNat := if_pos small
  rw [value, copyOf, List.length_cons]
  have size : ((rest.length + 1 : Nat) : Int) - first.toNat - 1 =
      ((rest.length - first.toNat : Nat) : Int) := by omega
  rw [size, if_neg (by omega), if_neg (by omega)]
  have start : ((first.toNat : Int) + 1).toNat = first.toNat + 1 := by omega
  rw [start, List.drop_succ_cons, Int.toNat_natCast, ← List.length_drop, List.take_length]

theorem newStringOf_part (platform : Platform) {first : UInt8} {rest : Bytes} (small : first < 128)
    (fits : first.toNat ≤ rest.length) :
    newStringOf platform (first :: rest) 1 (byteValue first) =
      some (platform.newString (rest.take first.toNat)) := by
  have value : byteValue first = first.toNat := if_pos small
  rw [value, newStringOf, List.length_cons, if_neg (by omega)]
  rfl

/-- A length that does not fit, negative ones included, throws before the recursion. -/
theorem throws_of_unfit (platform : Platform) {first : UInt8} {rest : Bytes}
    (unfit : ¬(first < 128 ∧ first.toNat ≤ rest.length)) :
    copyOf (first :: rest) (byteValue first + 1) ((first :: rest).length - byteValue first - 1) =
        none ∨
      newStringOf platform (first :: rest) 1 (byteValue first) = none := by
  by_cases small : first < 128
  · have value : byteValue first = first.toNat := if_pos small
    have long : rest.length < first.toNat := by
      by_contra fits
      exact unfit ⟨small, Nat.le_of_not_lt fits⟩
    refine .inl (if_pos ?_)
    rw [value, List.length_cons]
    omega
  · have value : byteValue first = first.toNat - 256 := if_neg small
    have bound := first.toNat_lt
    refine .inr (if_pos (.inr (.inl ?_)))
    rw [value]
    omega

theorem parseDomainCall_eq (platform : Platform) {depth fuel : Nat} {request : Bytes}
    (deep : request.length < depth) (enough : request.length ≤ fuel) :
    parseDomainCall platform depth request = some (parseParts platform fuel request) := by
  induction depth generalizing request fuel with
  | zero => omega
  | succ depth ih =>
      cases request with
      | nil => simp [parseDomainCall, parseParts]
      | cons first rest =>
          obtain ⟨fuel, rfl⟩ : ∃ less, fuel = less + 1 := ⟨fuel - 1, by
            rw [List.length_cons] at enough
            omega⟩
          rw [parseDomainCall, parseParts]
          by_cases zero : first = 0
          · rw [if_pos (byteValue_eq_zero.mpr zero), if_pos zero]
          · rw [if_neg (mt byteValue_eq_zero.mp zero), if_neg zero]
            by_cases fit : first < 128 ∧ first.toNat ≤ rest.length
            · have positive : 0 < first.toNat := by
                rw [Nat.pos_iff_ne_zero]
                exact fun same => zero (UInt8.toNat_inj.mp same)
              rw [copyOf_part fit.1 fit.2, newStringOf_part platform fit.1 fit.2, if_pos fit]
              have shorter : (rest.drop first.toNat).length + 1 ≤ rest.length := by
                rw [List.length_drop]
                omega
              rw [List.length_cons] at deep enough
              simp only [ih (by omega) (by omega : (rest.drop first.toNat).length ≤ fuel),
                Option.map_some]
            · rw [if_neg fit]
              rcases throws_of_unfit platform fit with uncopied | unread
              · rw [uncopied]
              · rw [unread]
                split
                · rfl
                · rfl

theorem getRequestDomainCall_eq (platform : Platform) (request : Bytes) :
    getRequestDomainCall platform request = some (some (getRequestDomain platform request)) := by
  unfold getRequestDomainCall getRequestDomain parseDomain
  by_cases long : 13 < request.length
  · have shorter : (request.drop 12).length < request.length := by
      rw [List.length_drop]
      omega
    rw [if_pos long, if_pos long, parseDomainCall_eq platform shorter le_rfl]
    cases body : request.drop 12 with
    | nil =>
        have size := congrArg List.length body
        rw [List.length_drop, List.length_nil] at size
        omega
    | cons first rest =>
        obtain ⟨text, read⟩ : ∃ text, parseParts platform (first :: rest).length (first :: rest) =
            some text := by
          rw [List.length_cons, parseParts]
          split
          · exact ⟨_, rfl⟩
          · split
            · exact ⟨_, rfl⟩
            · exact ⟨_, rfl⟩
        rw [read]
        rfl
  · rw [if_neg long, if_neg long]

/-! ### Names -/

theorem ascii_dot : ascii "." = [46] := by
  decide

def wireLabels (labels : List Bytes) : Bytes :=
  labels.flatMap fun label => label.length.toUInt8 :: label

/-- The question of the packet begins with these labels, and a zero byte behind them. -/
structure Names (request : Bytes) (labels : List Bytes) : Prop where
  long : 13 < request.length
  body : ∃ rest, request.drop 12 = wireLabels labels ++ 0 :: rest
  sizes : ∀ label ∈ labels, 1 ≤ label.length ∧ label.length ≤ 63
  bytes : ∀ label ∈ labels, ∀ byte ∈ label, byte < 128 ∧ byte ≠ 46

theorem length_le_wireLabels (labels : List Bytes) :
    labels.length ≤ (wireLabels labels).length := by
  induction labels with
  | nil => exact Nat.zero_le _
  | cons label labels ih =>
      unfold wireLabels at ih ⊢
      rw [List.flatMap_cons, List.length_append, List.length_cons, List.length_cons]
      omega

theorem parseParts_wireLabels {platform : Platform} {labels : List Bytes} {rest : Bytes} {fuel : Nat}
    (charset : ∀ label ∈ labels, platform.newString label = label)
    (sizes : ∀ label ∈ labels, 1 ≤ label.length ∧ label.length ≤ 63)
    (enough : labels.length < fuel) :
    parseParts platform fuel (wireLabels labels ++ 0 :: rest) =
      some (labels.flatMap fun label => label ++ ascii ".") := by
  induction labels generalizing fuel with
  | nil =>
      cases fuel with
      | zero => omega
      | succ fuel => rfl
  | cons label labels ih =>
      cases fuel with
      | zero => omega
      | succ fuel =>
          simp only [List.mem_cons, forall_eq_or_imp] at charset sizes
          have value : label.length.toUInt8.toNat = label.length := by
            rw [Nat.toUInt8_eq, UInt8.toNat_ofNat']
            omega
          have nonzero : label.length.toUInt8 ≠ 0 := by
            intro zero
            rw [zero, UInt8.toNat_zero] at value
            omega
          have small : label.length.toUInt8 < 128 := by
            rw [UInt8.lt_iff_toNat_lt, value]
            have bound : (128 : UInt8).toNat = 128 := rfl
            omega
          have split : wireLabels (label :: labels) ++ 0 :: rest =
              label.length.toUInt8 :: (label ++ (wireLabels labels ++ 0 :: rest)) := by
            simp [wireLabels]
          rw [List.length_cons] at enough
          rw [split, parseParts, if_neg nonzero, value,
            if_pos ⟨small, by rw [List.length_append]; omega⟩, List.take_left, List.drop_left,
            ih charset.2 sizes.2 (by omega), charset.1]
          rfl

theorem dropLast_dotted (label : Bytes) (labels : List Bytes) :
    ((label :: labels).flatMap fun label => label ++ ascii ".").dropLast =
      [46].intercalate (label :: labels) := by
  induction labels generalizing label with
  | nil => simp [ascii_dot]
  | cons next labels ih =>
      rw [List.flatMap_cons, List.dropLast_append_of_ne_nil (by simp [ascii_dot]), ih,
        List.intercalate_cons_cons, ascii_dot]

theorem getRequestDomain_names {platform : Platform} {request : Bytes} {labels : List Bytes}
    (charset : ∀ text : Bytes, (∀ byte ∈ text, byte < 128) → platform.newString text = text)
    (names : Names request labels) :
    getRequestDomain platform request = [46].intercalate labels := by
  obtain ⟨rest, body⟩ := names.body
  have enough : labels.length < (request.drop 12).length := by
    have shorter := length_le_wireLabels labels
    rw [body, List.length_append, List.length_cons]
    omega
  rw [getRequestDomain, if_pos names.long, parseDomain, body]
  rw [body] at enough
  rw [parseParts_wireLabels (fun label member =>
      charset label fun byte here => (names.bytes label member byte here).1) names.sizes enough]
  cases labels with
  | nil => rfl
  | cons label labels =>
      have size := (names.sizes label (by simp)).1
      have dotted : 1 < ((label :: labels).flatMap fun label => label ++ ascii ".").length := by
        rw [List.flatMap_cons, List.length_append, List.length_append, ascii_dot,
          List.length_singleton]
        omega
      simp only [Option.getD_some, if_pos dotted, dropLast_dotted]

/-- Names without dots in their labels are told apart by what they are read as. -/
theorem intercalate_dots_inj {first second : List Bytes}
    (firstLabels : ∀ label ∈ first, 1 ≤ label.length ∧ 46 ∉ label)
    (secondLabels : ∀ label ∈ second, 1 ≤ label.length ∧ 46 ∉ label)
    (same : [46].intercalate first = [46].intercalate second) : first = second := by
  have nonempty {label : Bytes} {labels : List Bytes} (size : 1 ≤ label.length) :
      [46].intercalate (label :: labels) ≠ [] := by
    intro empty
    have short := congrArg List.length empty
    cases labels with
    | nil =>
        rw [List.intercalate_singleton, List.length_nil] at short
        omega
    | cons next labels => simp at short
  cases first with
  | nil =>
      cases second with
      | nil => rfl
      | cons label labels => exact absurd same.symm (nonempty (secondLabels label (by simp)).1)
  | cons label labels =>
      cases second with
      | nil => exact absurd same (nonempty (firstLabels label (by simp)).1)
      | cons other others =>
          have split := congrArg (List.splitOn 46) same
          rwa [List.splitOn_intercalate 46 (fun label member => (firstLabels label member).2)
              (by simp),
            List.splitOn_intercalate 46 (fun label member => (secondLabels label member).2)
              (by simp)] at split

theorem Names.labels {request : Bytes} {labels : List Bytes} (names : Names request labels) :
    ∀ label ∈ labels, 1 ≤ label.length ∧ 46 ∉ label :=
  fun label member => ⟨(names.sizes label member).1,
    fun dot => (names.bytes label member 46 dot).2 rfl⟩

/-- The name of a packet is decoded without an exception, and as it stands in the packet; so
packets with different names have different keys in the cache. -/
theorem getRequestDomain_decodes (platform : Platform)
    (charset : ∀ text : Bytes, (∀ byte ∈ text, byte < 128) → platform.newString text = text) :
    (∀ request, ∃ domain, getRequestDomainCall platform request = some (some domain)) ∧
      (∀ request labels, Names request labels →
        getRequestDomainCall platform request = some (some ([46].intercalate labels))) ∧
      ∀ request labels other otherLabels, Names request labels → Names other otherLabels →
        labels ≠ otherLabels →
        getRequestDomainCall platform request ≠ getRequestDomainCall platform other := by
  refine ⟨?_, ?_, ?_⟩
  · intro request
    exact ⟨_, getRequestDomainCall_eq platform request⟩
  · intro request labels names
    rw [getRequestDomainCall_eq, getRequestDomain_names charset names]
  · intro request labels other otherLabels names otherNames different same
    rw [getRequestDomainCall_eq, getRequestDomainCall_eq, getRequestDomain_names charset names,
      getRequestDomain_names charset otherNames, Option.some.injEq, Option.some.injEq] at same
    exact different (intercalate_dots_inj names.labels otherNames.labels same)

theorem getRequestDomain_decodes_ascii :
    Names (queryFor 1 97 1) [[97], ascii "com"] ∧
      getRequestDomainCall asciiPlatform (queryFor 1 97 1) = some (some (ascii "a.com")) := by
  have names : Names (queryFor 1 97 1) [[97], ascii "com"] :=
    ⟨by decide, ⟨[0, 1, 0, 1], by decide⟩, by decide,
      List.forall_mem_cons.mpr ⟨List.all_iff_forall_prop.mp (by decide),
        List.forall_mem_singleton.mpr (List.all_iff_forall_prop.mp (by decide))⟩⟩
  have decoded := (getRequestDomain_decodes asciiPlatform fun _ _ => rfl).2.1 _ _ names
  exact ⟨names, decoded.trans (by decide)⟩

end ProxySet.Droid.Dns
