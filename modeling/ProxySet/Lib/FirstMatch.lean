import Mathlib.Data.List.Basic

/-!
Ordered rules, of which the first that covers a packet decides.
-/

namespace FirstMatch

variable {Rule Packet Verdict : Type} (covers : Rule → Packet → Bool) (verdict : Rule → Verdict)

def firstMatch (fallback : Verdict) : List Rule → Packet → Verdict
  | [], _ => fallback
  | rule :: rest, packet =>
      if covers rule packet then verdict rule else firstMatch fallback rest packet

theorem firstMatch_append (fallback : Verdict) (first second : List Rule) (packet : Packet) :
    firstMatch covers verdict fallback (first ++ second) packet =
      firstMatch covers verdict (firstMatch covers verdict fallback second packet) first packet := by
  induction first with
  | nil => rfl
  | cons rule rest ih => simp only [List.cons_append, firstMatch, ih]

theorem firstMatch_agreeing (fallback : Verdict) {rules : List Rule} {common : Verdict}
    (agree : ∀ rule ∈ rules, verdict rule = common) (packet : Packet) :
    firstMatch covers verdict fallback rules packet =
      if rules.any (covers · packet) then common else fallback := by
  induction rules with
  | nil => simp [firstMatch]
  | cons rule rest ih =>
      simp only [List.mem_cons, forall_eq_or_imp] at agree
      simp only [firstMatch, ih agree.2, agree.1, List.any_cons, Bool.or_eq_true]
      by_cases here : covers rule packet = true <;> simp [here]

theorem firstMatch_idem (fallback : Verdict) (rules : List Rule) (packet : Packet) :
    firstMatch covers verdict (firstMatch covers verdict fallback rules packet) rules packet =
      firstMatch covers verdict fallback rules packet := by
  induction rules with
  | nil => rfl
  | cons rule rest ih =>
      by_cases here : covers rule packet = true
      · simp [firstMatch, here]
      · simpa [firstMatch, here] using ih

theorem firstMatch_of_uncovered (fallback : Verdict) {rules : List Rule} {packet : Packet}
    (uncovered : ∀ rule ∈ rules, covers rule packet = false) :
    firstMatch covers verdict fallback rules packet = fallback := by
  induction rules with
  | nil => rfl
  | cons rule rest ih =>
      simp only [List.mem_cons, forall_eq_or_imp] at uncovered
      simp [firstMatch, uncovered.1, ih uncovered.2]

/-- Rules that say what would happen without them. -/
theorem firstMatch_of_agree {fallback : Verdict} {rules : List Rule} {packet : Packet}
    (agree : ∀ rule ∈ rules, covers rule packet = true → verdict rule = fallback) :
    firstMatch covers verdict fallback rules packet = fallback := by
  induction rules with
  | nil => rfl
  | cons rule rest ih =>
      simp only [List.mem_cons, forall_eq_or_imp] at agree
      rw [firstMatch, ih agree.2]
      by_cases here : covers rule packet = true
      · rw [if_pos here, agree.1 here]
      · rw [if_neg here]

theorem firstMatch_covered (fallback : Verdict) {rules : List Rule} {packet : Packet}
    (covered : ∃ rule ∈ rules, covers rule packet = true) :
    ∃ rule ∈ rules, covers rule packet = true ∧
      firstMatch covers verdict fallback rules packet = verdict rule := by
  induction rules with
  | nil => simp at covered
  | cons rule rest ih =>
      by_cases here : covers rule packet = true
      · exact ⟨rule, by simp, here, by rw [firstMatch, if_pos here]⟩
      · have later : ∃ rule ∈ rest, covers rule packet = true := by
          simpa [here] using covered
        obtain ⟨found, listed, covering, same⟩ := ih later
        exact ⟨found, by simp [listed], covering, by rw [firstMatch, if_neg here, same]⟩

theorem firstMatch_map_congr (fallback : Verdict) {Other : Type} {rules : List Other}
    (first second : Other → Rule) (packet : Packet)
    (sameCover : ∀ rule ∈ rules, covers (first rule) packet = covers (second rule) packet)
    (sameVerdict : ∀ rule ∈ rules, verdict (first rule) = verdict (second rule)) :
    firstMatch covers verdict fallback (rules.map first) packet =
      firstMatch covers verdict fallback (rules.map second) packet := by
  induction rules with
  | nil => rfl
  | cons rule rest ih =>
      simp only [List.mem_cons, forall_eq_or_imp] at sameCover sameVerdict
      simp only [List.map_cons, firstMatch, sameCover.1, sameVerdict.1,
        ih sameCover.2 sameVerdict.2]

/-- The same rules once for each of several owners, whom they are restricted to. -/
theorem firstMatch_owners {Owner : Type} [DecidableEq Owner] (fallback : Verdict)
    (rules : List Rule) (restrict : Owner → Rule → Rule) (owner : Owner) (packet : Packet)
    (own : ∀ rule ∈ rules, covers (restrict owner rule) packet = covers rule packet)
    (foreign : ∀ other, other ≠ owner → ∀ rule ∈ rules,
      covers (restrict other rule) packet = false)
    (sameVerdict : ∀ other, ∀ rule ∈ rules, verdict (restrict other rule) = verdict rule)
    (owners : List Owner) :
    firstMatch covers verdict fallback (owners.flatMap fun owner => rules.map (restrict owner))
        packet =
      if owner ∈ owners then firstMatch covers verdict fallback rules packet else fallback := by
  induction owners with
  | nil => rfl
  | cons other owners ih =>
      rw [List.flatMap_cons, firstMatch_append, ih]
      by_cases same : other = owner
      · subst same
        have asWhole (fallback : Verdict) :
            firstMatch covers verdict fallback (rules.map (restrict other)) packet =
              firstMatch covers verdict fallback rules packet := by
          have congr := firstMatch_map_congr covers verdict fallback (restrict other) id packet own
            (sameVerdict other)
          rwa [List.map_id] at congr
        rw [asWhole]
        by_cases again : other ∈ owners
        · simp [again, firstMatch_idem]
        · simp [again]
      · have uncovered : ∀ rule ∈ rules.map (restrict other), covers rule packet = false := by
          simpa using foreign other same
        rw [firstMatch_of_uncovered covers verdict _ uncovered]
        simp [Ne.symm same]

theorem foldl_lastSet {State Item Value : Type} {step : State → Item → State}
    {field : State → Option Value} {sets : Item → Option Value} {items : List Item}
    (each : ∀ item ∈ items, ∀ state, field (step state item) = (sets item).or (field state))
    (state : State) :
    field (items.foldl step state) = (items.reverse.findSome? sets).or (field state) := by
  induction items generalizing state with
  | nil => rfl
  | cons item rest ih =>
      simp only [List.mem_cons, forall_eq_or_imp] at each
      rw [List.foldl_cons, ih each.2, each.1, List.reverse_cons, List.findSome?_append,
        Option.or_assoc]
      cases item_sets : sets item with
      | none => simp [item_sets]
      | some value => simp [item_sets]

end FirstMatch
