import Mathlib.Data.List.Basic

/-!
Finite runs of a partial step function, and the rules that carry a property of
single steps over to every state a run reaches.
-/

namespace StepRun

variable {State Label : Type}

def run (step : State → Label → Option State) : List Label → State → Option State
  | [], state => some state
  | label :: rest, state => (step state label).bind (run step rest)

/-- Every step of the run meets `allowed` in the state it is taken from. -/
def Along (step : State → Label → Option State) (allowed : State → Label → Prop) :
    List Label → State → Prop
  | [], _ => True
  | label :: rest, state =>
      allowed state label ∧ ∀ next, step state label = some next → Along step allowed rest next

/-- What the steps of a run show, in order; a label without a step ends the run. -/
def collect {Shown : Type} (step : State → Label → Option State)
    (shows : State → Label → State → Option Shown) : List Label → State → List Shown
  | [], _ => []
  | label :: rest, state =>
      match step state label with
      | none => []
      | some next => (shows state label next).toList ++ collect step shows rest next

variable {step : State → Label → Option State} {allowed : State → Label → Prop}

instance decidableAlong [∀ state label, Decidable (allowed state label)] :
    ∀ (labels : List Label) (state : State), Decidable (Along step allowed labels state)
  | [], _ => isTrue trivial
  | label :: rest, state =>
      match taken : step state label with
      | none => decidable_of_iff (allowed state label) (by simp [Along, taken])
      | some next =>
          have := decidableAlong rest next
          decidable_of_iff (allowed state label ∧ Along step allowed rest next) (by simp [Along, taken])

@[simp] theorem run_nil (state : State) : run step [] state = some state := rfl

@[simp] theorem run_cons (label : Label) (rest : List Label) (state : State) :
    run step (label :: rest) state = (step state label).bind (run step rest) := rfl

theorem run_append (first second : List Label) (state : State) :
    run step (first ++ second) state = (run step first state).bind (run step second) := by
  induction first generalizing state with
  | nil => rfl
  | cons label rest ih =>
      simp only [List.cons_append, run_cons]
      cases taken : step state label with
      | none => rfl
      | some next => simpa using ih next

theorem run_cons_some {label : Label} {rest : List Label} {state final : State}
    (ran : run step (label :: rest) state = some final) :
    ∃ next, step state label = some next ∧ run step rest next = some final :=
  Option.bind_eq_some_iff.mp ran

/-- A property kept by every allowed step holds at the end of every allowed run. -/
theorem run_invariant_along (holds : State → Prop)
    (kept : ∀ state label next, holds state → allowed state label →
      step state label = some next → holds next) :
    ∀ {labels : List Label} {state final : State}, holds state →
      Along step allowed labels state → run step labels state = some final → holds final := by
  intro labels
  induction labels with
  | nil =>
      intro state final initial _ ran
      simp only [run_nil, Option.some.injEq] at ran
      exact ran ▸ initial
  | cons label rest ih =>
      intro state final initial met ran
      obtain ⟨next, taken, later⟩ := run_cons_some ran
      exact ih (kept state label next initial met.1 taken) (met.2 next taken) later

theorem along_of_forall {allowed : Label → Prop} {labels : List Label}
    (all : ∀ label ∈ labels, allowed label) (state : State) :
    Along step (fun _ label => allowed label) labels state := by
  induction labels generalizing state with
  | nil => trivial
  | cons label rest ih =>
      refine ⟨all label (by simp), fun next _ => ih ?_ next⟩
      intro other member
      exact all other (by simp [member])

theorem run_invariant (holds : State → Prop)
    (kept : ∀ state label next, holds state → step state label = some next → holds next)
    {labels : List Label} {state final : State} (initial : holds state)
    (ran : run step labels state = some final) : holds final := by
  induction labels generalizing state with
  | nil =>
      simp only [run_nil, Option.some.injEq] at ran
      exact ran ▸ initial
  | cons label rest ih =>
      obtain ⟨next, taken, later⟩ := run_cons_some ran
      exact ih (kept state label next initial taken) later

/-- A property of a state and of all that the steps to it have shown. -/
theorem run_invariant_collect {Shown : Type} {shows : State → Label → State → Option Shown}
    (holds : State → List Shown → Prop)
    (kept : ∀ state shown label next, holds state shown → step state label = some next →
      holds next (shown ++ (shows state label next).toList))
    {labels : List Label} {state final : State} (initial : holds state [])
    (ran : run step labels state = some final) :
    holds final (collect step shows labels state) := by
  suffices later : ∀ {state : State} (shown : List Shown), holds state shown →
      run step labels state = some final → holds final (shown ++ collect step shows labels state) from
    later [] initial ran
  clear initial ran
  intro state shown before ran
  induction labels generalizing state shown with
  | nil =>
      obtain rfl := Option.some.inj ran
      rwa [collect, List.append_nil]
  | cons label rest ih =>
      obtain ⟨next, taken, ranRest⟩ := run_cons_some ran
      rw [collect, taken]
      dsimp only
      rw [← List.append_assoc]
      exact ih _ (kept state shown label next before taken) ranRest

theorem collect_congr_along {Shown : Type} {shows other : State → Label → State → Option Shown}
    (agree : ∀ state label next, allowed state label → step state label = some next →
      shows state label next = other state label next)
    {labels : List Label} {state : State} (met : Along step allowed labels state) :
    collect step shows labels state = collect step other labels state := by
  induction labels generalizing state with
  | nil => rfl
  | cons label rest ih =>
      cases taken : step state label with
      | none => simp only [collect, taken]
      | some next =>
          simp only [collect, taken, agree state label next met.1 taken, ih (met.2 next taken)]

theorem along_and {also : State → Label → Prop} {labels : List Label} {state : State}
    (met : Along step allowed labels state) (alsoMet : Along step also labels state) :
    Along step (fun state label => allowed state label ∧ also state label) labels state := by
  induction labels generalizing state with
  | nil => trivial
  | cons label rest ih =>
      exact ⟨⟨met.1, alsoMet.1⟩, fun next taken => ih (met.2 next taken) (alsoMet.2 next taken)⟩

theorem along_at {taken rest : List Label} {label : Label} {state middle : State}
    (met : Along step allowed (taken ++ label :: rest) state)
    (ran : run step taken state = some middle) : allowed middle label := by
  induction taken generalizing state with
  | nil =>
      obtain rfl := Option.some.inj ran
      exact met.1
  | cons first taken ih =>
      obtain ⟨next, stepped, later⟩ := run_cons_some ran
      exact ih (met.2 next stepped) later

theorem along_iff_at {labels : List Label} {state : State} :
    Along step allowed labels state ↔
      ∀ taken label rest middle, labels = taken ++ label :: rest →
        run step taken state = some middle → allowed middle label := by
  constructor
  · rintro met taken label rest middle rfl ran
    exact along_at met ran
  · intro every
    induction labels generalizing state with
    | nil => trivial
    | cons label labels ih =>
        refine ⟨every [] label labels state rfl rfl, fun next stepped => ih ?_⟩
        rintro taken other rest middle rfl ran
        exact every (label :: taken) other rest middle rfl (by simp [stepped, ran])

theorem along_append {first second : List Label} {state : State}
    (met : Along step allowed first state)
    (later : ∀ middle, run step first state = some middle → Along step allowed second middle) :
    Along step allowed (first ++ second) state := by
  induction first generalizing state with
  | nil => exact later state rfl
  | cons label first ih =>
      refine ⟨met.1, fun next taken => ih (met.2 next taken) fun middle ran => later middle ?_⟩
      rw [run_cons, taken, Option.bind_some, ran]

theorem along_concat {labels : List Label} {last : Label} {state : State}
    (met : Along step allowed labels state)
    (lastMet : ∀ final, run step labels state = some final → allowed final last) :
    Along step allowed (labels ++ [last]) state :=
  along_append met fun final ran => ⟨lastMet final ran, fun _ _ => trivial⟩

/-- What an allowed step shows, all the steps of an allowed run show. -/
theorem along_of_along {shown : State → Label → Prop} (holds : State → Prop)
    (kept : ∀ state label next, holds state → allowed state label →
      step state label = some next → holds next)
    (shows' : ∀ state label, holds state → allowed state label → shown state label) :
    ∀ {labels : List Label} {state : State}, holds state → Along step allowed labels state →
      Along step shown labels state := by
  intro labels
  induction labels with
  | nil => exact fun _ _ => trivial
  | cons label rest ih =>
      intro state initial met
      refine ⟨shows' state label initial met.1, fun next taken => ?_⟩
      exact ih (kept state label next initial met.1 taken) (met.2 next taken)

/-- Under an invariant that good states keep, where a step from a good state leads to a good one
exactly when it is allowed, every state a run passes through is good exactly when all its steps
are allowed. -/
theorem good_iff_along {permitted : Label → Prop} (holds good : State → Prop)
    (kept : ∀ state label next, holds state → good state → permitted label →
      step state label = some next → good next → holds next)
    (decides : ∀ state label next, holds state → good state → permitted label →
      step state label = some next → (good next ↔ allowed state label))
    (blocked : ∀ state label, holds state → step state label = none → allowed state label)
    {labels : List Label} (all : ∀ label ∈ labels, permitted label) :
    ∀ {state : State}, holds state → good state →
      ((∀ taken rest next, labels = taken ++ rest → run step taken state = some next → good next) ↔
        Along step allowed labels state) := by
  induction labels with
  | nil =>
      intro state _ initial
      refine iff_of_true ?_ trivial
      intro taken rest next split ran
      obtain ⟨rfl, rfl⟩ := List.append_eq_nil_iff.mp split.symm
      exact Option.some.inj ran ▸ initial
  | cons label labels ih =>
      intro state held initial
      have permittedHere : permitted label := all label (by simp)
      have permittedLater : ∀ other ∈ labels, permitted other :=
        fun other member => all other (by simp [member])
      constructor
      · intro passes
        cases first : step state label with
        | none => exact ⟨blocked state label held first, fun next taken => by simp [first] at taken⟩
        | some next =>
            have goodNext := passes [label] labels next rfl (by simp [first])
            refine ⟨(decides state label next held initial permittedHere first).mp goodNext,
              fun other taken => ?_⟩
            obtain rfl := Option.some.inj (first.symm.trans taken)
            have heldNext := kept state label next held initial permittedHere first goodNext
            refine (ih permittedLater heldNext goodNext).mp fun done rest final split ran => ?_
            exact passes (label :: done) rest final (by simp [split]) (by simp [first, ran])
      · rintro ⟨met, later⟩ taken rest next split ran
        cases taken with
        | nil => exact Option.some.inj ran ▸ initial
        | cons other taken =>
            obtain ⟨rfl, splitRest⟩ := List.cons.inj split
            obtain ⟨middle, first, ranRest⟩ := run_cons_some ran
            have goodMiddle :=
              (decides state label middle held initial permittedHere first).mpr met
            have heldMiddle := kept state label middle held initial permittedHere first goodMiddle
            exact (ih permittedLater heldMiddle goodMiddle).mpr (later middle first) taken rest next
              splitRest ranRest

theorem always_iff_along {permitted : Label → Prop} (holds good : State → Prop)
    (kept : ∀ state label next, holds state → permitted label →
      step state label = some next → holds next)
    (decides : ∀ state label next, holds state → good state → permitted label →
      step state label = some next → (good next ↔ allowed state label))
    (blocked : ∀ state label, holds state → step state label = none → allowed state label)
    {labels : List Label} (all : ∀ label ∈ labels, permitted label) {state : State}
    (held : holds state) (initial : good state) :
    (∀ taken rest next, labels = taken ++ rest → run step taken state = some next → good next) ↔
      Along step allowed labels state :=
  good_iff_along holds good
    (fun state label next before _ permitted taken _ => kept state label next before permitted taken)
    decides blocked all held initial

theorem good_along_iff (good : State → Prop)
    (decides : ∀ state label next, good state → step state label = some next →
      (good next ↔ allowed state label))
    (blocked : ∀ state label, step state label = none → allowed state label) (labels : List Label)
    {state : State} (initial : good state) :
    (∀ taken rest next, labels = taken ++ rest → run step taken state = some next → good next) ↔
      Along step allowed labels state :=
  always_iff_along (fun _ => True) good (fun _ _ _ _ _ _ => trivial)
    (fun state label next _ before _ taken => decides state label next before taken)
    (fun state label _ => blocked state label) (fun _ _ => trivial : ∀ label ∈ labels, True)
    trivial initial

end StepRun
