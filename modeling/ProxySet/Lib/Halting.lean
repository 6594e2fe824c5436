import Mathlib.Logic.Function.Iterate

/-!
Machines that take one step after the other and stay where they have finished.
-/

namespace Halting

variable {State : Type} {next : State → State} {finished keeps : State → Prop}

/-- A machine that gets closer to its end in every step comes to it, and keeps what every step
keeps. -/
theorem exists_finished (measure : State → Nat)
    (step : ∀ state, keeps state → ¬finished state →
      keeps (next state) ∧ (finished (next state) ∨ measure (next state) < measure state))
    {state : State} (start : keeps state) :
    ∃ count, finished (next^[count] state) ∧ ∀ before ≤ count, keeps (next^[before] state) := by
  induction bound : measure state using Nat.strongRecOn generalizing state with
  | ind bound ih =>
      by_cases done : finished state
      · refine ⟨0, done, fun before none => ?_⟩
        obtain rfl : before = 0 := by omega
        exact start
      · obtain ⟨kept, closer⟩ := step state start done
        have later : ∃ count, finished (next^[count] (next state)) ∧
            ∀ before ≤ count, keeps (next^[before] (next state)) := by
          rcases closer with now | less
          · refine ⟨0, now, fun before none => ?_⟩
            obtain rfl : before = 0 := by omega
            exact kept
          · exact ih _ (bound ▸ less) kept rfl
        obtain ⟨count, ends, keptAll⟩ := later
        refine ⟨count + 1, ends, fun before within => ?_⟩
        cases before with
        | zero => exact start
        | succ before => exact keptAll before (by omega)

end Halting
