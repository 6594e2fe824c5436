import Mathlib.Data.List.DropRight

/-!
Texts cut into lines by a mark: the whole lines at the front of a text, without
the unfinished line behind the last mark.
-/

namespace Lines

variable {Symbol : Type}

def whole [DecidableEq Symbol] (mark : Symbol) (text : List Symbol) : List Symbol :=
  text.rdropWhile (· ≠ mark)

/-- Nothing stands behind the last mark. -/
def Complete (mark : Symbol) (text : List Symbol) : Prop :=
  ∀ last ∈ text.getLast?, last = mark

variable {mark : Symbol}

theorem complete_nil : Complete mark [] := by
  simp [Complete]

theorem complete_concat (text : List Symbol) : Complete mark (text ++ [mark]) := by
  simp [Complete]

theorem complete_of_getLast? {text : List Symbol} (last : text.getLast? = some mark) :
    Complete mark text := by
  intro other found
  rw [last] at found
  exact (Option.some.inj found).symm

theorem Complete.suffix {text rest : List Symbol} (complete : Complete mark text)
    (suffix : rest <:+ text) : Complete mark rest := by
  obtain ⟨front, rfl⟩ := suffix
  intro last found
  apply complete
  rw [Option.mem_def] at found ⊢
  rw [List.getLast?_append, found]
  rfl

theorem Complete.cons {symbol : Symbol} {text : List Symbol} (complete : Complete mark text)
    (nonempty : text ≠ []) : Complete mark (symbol :: text) := by
  obtain ⟨first, rest, rfl⟩ := List.exists_cons_of_ne_nil nonempty
  simpa [Complete, List.getLast?_cons_cons] using complete

theorem Complete.append {first second : List Symbol} (complete : Complete mark first)
    (later : Complete mark second) : Complete mark (first ++ second) := by
  intro last found
  rw [Option.mem_def, List.getLast?_append] at found
  cases ends : second.getLast? with
  | none =>
      rw [ends] at found
      exact complete last found
  | some other =>
      rw [ends] at found
      obtain rfl : other = last := Option.some.inj found
      exact later other ends

variable [DecidableEq Symbol]

theorem whole_append_of_not_mem (first : List Symbol) {second : List Symbol}
    (unmarked : mark ∉ second) : whole mark (first ++ second) = whole mark first := by
  induction second using List.reverseRecOn with
  | nil => simp
  | append_singleton second symbol ih =>
      simp only [List.mem_append, List.mem_singleton, not_or] at unmarked
      rw [← List.append_assoc, whole, List.rdropWhile_concat_pos]
      · exact ih unmarked.1
      · simpa using Ne.symm unmarked.2

theorem Complete.whole_eq {text : List Symbol} (complete : Complete mark text) :
    whole mark text = text := by
  apply List.rdropWhile_eq_self_iff.mpr
  intro nonempty
  have last := complete (text.getLast nonempty) (List.getLast?_eq_some_getLast nonempty)
  simp [last]

theorem whole_complete (text : List Symbol) : Complete mark (whole mark text) := by
  intro last found
  have nonempty : whole mark text ≠ [] := by
    rintro empty
    simp [empty] at found
  have kept := List.rdropWhile_last_not (fun symbol => decide (symbol ≠ mark)) text nonempty
  rw [Option.mem_def, List.getLast?_eq_some_getLast nonempty, Option.some.injEq] at found
  rw [← found]
  simpa [whole] using kept

variable (mark) in
theorem exists_tail (text : List Symbol) :
    ∃ tail, text = whole mark text ++ tail ∧ mark ∉ tail := by
  refine ⟨text.rtakeWhile (· ≠ mark), List.rdropWhile_append_rtakeWhile.symm, ?_⟩
  intro member
  simpa using List.mem_rtakeWhile_imp member

theorem Complete.whole_append {first : List Symbol} (complete : Complete mark first)
    (second : List Symbol) : whole mark (first ++ second) = first ++ whole mark second := by
  obtain ⟨tail, split, unmarked⟩ := exists_tail mark second
  have ends : Complete mark (first ++ whole mark second) := complete.append (whole_complete second)
  calc
    whole mark (first ++ second) = whole mark (first ++ whole mark second ++ tail) := by
      rw [List.append_assoc, ← split]
    _ = whole mark (first ++ whole mark second) := whole_append_of_not_mem _ unmarked
    _ = first ++ whole mark second := ends.whole_eq

end Lines
