import Mathlib.Data.List.Basic
import Mathlib.Data.List.Sort

/-!
Stable sorting by a number.  The result is determined: whichever stable sort is
used, a list has one arrangement in which the numbers do not fall and elements
with the same number stand as they stood before.
-/

namespace StableSort

variable {Element : Type} {key : Element → Nat} {before after other : List Element}

structure Sorted (key : Element → Nat) (before after : List Element) : Prop where
  ordered : after.Pairwise fun first second => key first ≤ key second
  stable : ∀ value, after.filter (key · = value) = before.filter (key · = value)

theorem Sorted.mem_iff (sorted : Sorted key before after) {element : Element} :
    element ∈ after ↔ element ∈ before := by
  have same := sorted.stable (key element)
  constructor
  · intro member
    have kept : element ∈ after.filter (key · = key element) := by simp [member]
    rw [same] at kept
    exact List.mem_of_mem_filter kept
  · intro member
    have kept : element ∈ before.filter (key · = key element) := by simp [member]
    rw [← same] at kept
    exact List.mem_of_mem_filter kept

theorem Sorted.cons_eq {first second : Element} {firsts seconds : List Element}
    (sorted : Sorted key (first :: firsts) (second :: seconds))
    (ordered : (first :: firsts).Pairwise fun left right => key left ≤ key right) :
    first = second ∧ Sorted key firsts seconds := by
  obtain ⟨least, tailOrdered⟩ := List.pairwise_cons.mp sorted.ordered
  obtain ⟨leastBefore, -⟩ := List.pairwise_cons.mp ordered
  have below : key second ≤ key first := by
    have member : first ∈ second :: seconds := sorted.mem_iff.mpr (by simp)
    rcases List.mem_cons.mp member with rfl | later
    · exact Nat.le_refl _
    · exact least first later
  have above : key first ≤ key second := by
    have member : second ∈ first :: firsts := sorted.mem_iff.mp (by simp)
    rcases List.mem_cons.mp member with rfl | later
    · exact Nat.le_refl _
    · exact leastBefore second later
  have same : key second = key first := Nat.le_antisymm below above
  have heads : first = second := by
    have filtered := sorted.stable (key first)
    simp only [List.filter_cons, same, decide_true, ↓reduceIte, List.cons.injEq] at filtered
    exact filtered.1.symm
  subst heads
  refine ⟨rfl, tailOrdered, fun value => ?_⟩
  have filtered := sorted.stable value
  by_cases here : key first = value
  · simpa [List.filter_cons, here] using filtered
  · simpa [List.filter_cons, here] using filtered

theorem Sorted.eq_of_ordered (sorted : Sorted key before after)
    (ordered : before.Pairwise fun first second => key first ≤ key second) : before = after := by
  induction before generalizing after with
  | nil =>
      cases after with
      | nil => rfl
      | cons second seconds => exact absurd (sorted.mem_iff.mp (List.mem_cons_self ..)) (by simp)
  | cons first firsts ih =>
      cases after with
      | nil => exact absurd (sorted.mem_iff.mpr (List.mem_cons_self ..)) (by simp)
      | cons second seconds =>
          obtain ⟨rfl, rest⟩ := sorted.cons_eq ordered
          rw [ih rest (List.pairwise_cons.mp ordered).2]

theorem Sorted.unique (sorted : Sorted key before after) (otherwise : Sorted key before other) :
    after = other := by
  have again : Sorted key after other :=
    ⟨otherwise.ordered, fun value => (otherwise.stable value).trans (sorted.stable value).symm⟩
  exact again.eq_of_ordered sorted.ordered

/-- The comparison that a stable sort by `key` uses. -/
def keyLe (key : Element → Nat) (first second : Element) : Bool :=
  decide (key first ≤ key second)

theorem keyLe_trans (first second third : Element) (lower : keyLe key first second = true)
    (upper : keyLe key second third = true) : keyLe key first third = true := by
  simp only [keyLe, decide_eq_true_eq] at lower upper ⊢
  exact Nat.le_trans lower upper

theorem keyLe_total (first second : Element) :
    (keyLe key first second || keyLe key second first) = true := by
  simpa [keyLe] using Nat.le_total (key first) (key second)

theorem filter_mergeSort (key : Element → Nat) (before : List Element) (value : Nat) :
    (before.mergeSort (keyLe key)).filter (key · = value) = before.filter (key · = value) := by
  have level : (before.filter (key · = value)).Pairwise fun first second =>
      keyLe key first second = true := by
    refine List.pairwise_of_forall_mem_list ?_
    intro first firstIn second secondIn
    have firstKey : key first = value := by simpa using (List.mem_filter.mp firstIn).2
    have secondKey : key second = value := by simpa using (List.mem_filter.mp secondIn).2
    simp [keyLe, firstKey, secondKey]
  have kept := (List.sublist_mergeSort keyLe_trans keyLe_total level List.filter_sublist).filter
    (key · = value)
  rw [List.filter_filter] at kept
  simp only [Bool.and_self] at kept
  have count := ((List.mergeSort_perm before (keyLe key)).filter (key · = value)).length_eq
  exact (kept.eq_of_length count.symm).symm

theorem sorted_mergeSort (key : Element → Nat) (before : List Element) :
    Sorted key before (before.mergeSort (keyLe key)) where
  ordered := by
    have ordered := List.pairwise_mergeSort keyLe_trans (@keyLe_total _ key) before
    simpa [keyLe] using ordered
  stable := filter_mergeSort key before

end StableSort
