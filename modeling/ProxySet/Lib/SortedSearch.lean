import Mathlib.Data.List.Sort

/-!
Binary search in a sorted list, over any order that is given by a comparison.
-/

namespace SortedSearch

variable {Item : Type} (le : Item → Item → Bool)

/-- The search between `low` and `high`, the latter excluded. -/
def searchLoop (items : List Item) (key : Item) : Nat → Nat → Nat → Option Nat
  | 0, _, _ => none
  | fuel + 1, low, high =>
      if low < high then
        let middle := (low + (high - 1)) / 2
        match items[middle]? with
        | none => none
        | some item =>
            if le item key then
              if le key item then some middle else searchLoop items key fuel (middle + 1) high
            else searchLoop items key fuel low middle
      else none

def search (items : List Item) (key : Item) : Option Nat :=
  searchLoop le items key items.length 0 items.length

structure LinearComparison : Prop where
  trans : ∀ first second third, le first second = true → le second third = true →
    le first third = true
  total : ∀ first second, (le first second || le second first) = true
  antisymm : ∀ first second, le first second = true → le second first = true → first = second

variable {le}

theorem searchLoop_sound (linear : LinearComparison le) {items : List Item} {key : Item}
    (fuel low high : Nat) {index : Nat}
    (found : searchLoop le items key fuel low high = some index) : items[index]? = some key := by
  induction fuel generalizing low high with
  | zero => simp [searchLoop] at found
  | succ fuel ih =>
      simp only [searchLoop] at found
      split at found
      · split at found
        · simp at found
        · rename_i item here
          split at found
          · rename_i below
            split at found
            · rename_i above
              obtain rfl : (low + (high - 1)) / 2 = index := Option.some.inj found
              rw [here, linear.antisymm item key below above]
            · exact ih _ _ found
          · exact ih _ _ found
      · simp at found

theorem searchLoop_complete (linear : LinearComparison le) {items : List Item} {key : Item}
    (sorted : items.Pairwise fun first second => le first second = true) {index : Nat}
    (here : items[index]? = some key) (fuel low high : Nat) (enough : high - low ≤ fuel)
    (inside : low ≤ index ∧ index < high) (bounded : high ≤ items.length) :
    (searchLoop le items key fuel low high).isSome = true := by
  have ordered {first second : Nat} {one other : Item} (before : first ≤ second)
      (atFirst : items[first]? = some one) (atSecond : items[second]? = some other) :
      le one other = true := by
    obtain ⟨firstBound, rfl⟩ := List.getElem?_eq_some_iff.mp atFirst
    obtain ⟨secondBound, rfl⟩ := List.getElem?_eq_some_iff.mp atSecond
    rcases Nat.lt_or_eq_of_le before with less | rfl
    · exact List.pairwise_iff_getElem.mp sorted first second firstBound secondBound less
    · simpa using linear.total items[first] items[first]
  induction fuel generalizing low high with
  | zero => omega
  | succ fuel ih =>
      have room : low < high := by omega
      have middleBound : (low + (high - 1)) / 2 < items.length := by omega
      have atMiddle : items[(low + (high - 1)) / 2]? = some items[(low + (high - 1)) / 2] :=
        List.getElem?_eq_getElem middleBound
      simp only [searchLoop, room, if_true, atMiddle]
      by_cases below : le items[(low + (high - 1)) / 2] key = true
      · rw [if_pos below]
        by_cases above : le key items[(low + (high - 1)) / 2] = true
        · rw [if_pos above]
          rfl
        · rw [if_neg above]
          refine ih _ _ (by omega) ⟨?_, inside.2⟩ bounded
          by_contra late
          exact above (ordered (by omega) here atMiddle)
      · rw [if_neg below]
        refine ih _ _ (by omega) ⟨inside.1, ?_⟩ (by omega)
        by_contra early
        exact below (ordered (by omega) atMiddle here)

theorem search_isSome (linear : LinearComparison le) {items : List Item}
    (sorted : items.Pairwise fun first second => le first second = true) (key : Item) :
    (search le items key).isSome = true ↔ key ∈ items := by
  constructor
  · intro found
    obtain ⟨index, same⟩ := Option.isSome_iff_exists.mp found
    exact List.mem_of_getElem? (searchLoop_sound linear _ _ _ same)
  · intro member
    obtain ⟨index, here⟩ := List.getElem?_of_mem member
    have bound : index < items.length := (List.getElem?_eq_some_iff.mp here).1
    exact searchLoop_complete linear sorted here _ _ _ (by omega) ⟨by omega, bound⟩ le_rfl

theorem search_mergeSort (linear : LinearComparison le) (items : List Item) (key : Item) :
    (search le (items.mergeSort le) key).isSome = true ↔ key ∈ items := by
  rw [search_isSome linear (List.pairwise_mergeSort linear.trans linear.total items) key]
  exact List.mem_mergeSort

end SortedSearch
