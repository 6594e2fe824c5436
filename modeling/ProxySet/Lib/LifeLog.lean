import Mathlib.Data.List.Nodup

/-!
The life of one object in the order of its events: the handles that are opened and closed for
it, its uses, and its end.
-/

namespace LifeLog

variable {Handle : Type}

inductive Event (Handle : Type) where
  /-- Of the single handles at most one is to be open at a time. -/
  | opened (handle : Handle) (single : Bool)
  | closed (handle : Handle)
  | used
  | dropped
  deriving DecidableEq

/-- What may follow the events so far.  A handle that is opened is a new one. -/
def Permitted (log : List (Event Handle)) (event : Event Handle) : Prop :=
  .dropped ∉ log ∧
    match event with
    | .opened _ true => ∀ other, .opened other true ∈ log → .closed other ∈ log
    | .closed handle => .closed handle ∉ log
    | .dropped => ∀ handle single, .opened handle single ∈ log → .closed handle ∈ log
    | _ => True

/-- Nothing happens after the end, every handle has been closed by then, and none is closed
twice; the single ones are open one after the other. -/
def Lawful (log : List (Event Handle)) : Prop :=
  ∀ front event back, log = front ++ event :: back → Permitted front event

def Continues (log : List (Event Handle)) : List (Event Handle) → Prop
  | [] => True
  | event :: rest => Permitted log event ∧ Continues (log ++ [event]) rest

theorem lawful_nil : Lawful ([] : List (Event Handle)) := by
  intro front event back same
  simp at same

theorem lawful_of_append {log more : List (Event Handle)} (lawful : Lawful (log ++ more)) :
    Lawful log := by
  rintro front event back rfl
  exact lawful front event (back ++ more) (by simp)

theorem lawful_concat {log : List (Event Handle)} {event : Event Handle} :
    Lawful (log ++ [event]) ↔ Lawful log ∧ Permitted log event := by
  constructor
  · intro lawful
    exact ⟨lawful_of_append lawful, lawful log event [] rfl⟩
  · rintro ⟨lawful, permitted⟩ front other back same
    rcases List.eq_nil_or_concat back with rfl | ⟨earlier, last, rfl⟩
    · obtain ⟨rfl, last⟩ := List.append_inj' same rfl
      obtain rfl := List.singleton_inj.mp last
      exact permitted
    · rw [List.concat_eq_append, ← List.cons_append, ← List.append_assoc] at same
      obtain ⟨rfl, -⟩ := List.append_inj' same rfl
      exact lawful front other earlier rfl

theorem lawful_append {log more : List (Event Handle)} :
    Lawful (log ++ more) ↔ Lawful log ∧ Continues log more := by
  induction more generalizing log with
  | nil => simp [Continues]
  | cons event more ih =>
      have split : log ++ event :: more = log ++ [event] ++ more := by simp
      rw [split, ih, lawful_concat, Continues, and_assoc]

theorem continues_append {log first second : List (Event Handle)} :
    Continues log (first ++ second) ↔ Continues log first ∧ Continues (log ++ first) second := by
  induction first generalizing log with
  | nil => simp [Continues]
  | cons event first ih =>
      rw [List.cons_append, Continues, Continues, ih, and_assoc, List.append_assoc,
        List.singleton_append]

theorem not_continues_of_dropped {log more : List (Event Handle)} (ended : .dropped ∈ log)
    (some : more ≠ []) : ¬Continues log more := by
  obtain ⟨event, rest, rfl⟩ := List.exists_cons_of_ne_nil some
  exact fun continues => continues.1.1 ended

/-! ### An object in use -/

/-- The object has not ended, and these handles are what is open of it. -/
structure Holds (log : List (Event Handle)) (held : List (Handle × Bool)) : Prop where
  alive : .dropped ∉ log
  opens : ∀ handle single, .opened handle single ∈ log ↔ (handle, single) ∈ held
  unclosed : ∀ handle, .closed handle ∉ log

section

variable {log : List (Event Handle)} {held : List (Handle × Bool)}

theorem holds_nil : Holds ([] : List (Event Handle)) [] where
  alive := by simp
  opens := by simp
  unclosed := by simp

theorem Holds.use (holds : Holds log held) : Holds (log ++ [Event.used]) held where
  alive := by simp [holds.alive]
  opens := by simp [holds.opens]
  unclosed := by simp [holds.unclosed]

theorem Holds.use_permitted (holds : Holds log held) : Permitted log .used :=
  ⟨holds.alive, trivial⟩

theorem Holds.open (holds : Holds log held) (handle : Handle) (single : Bool) :
    Holds (log ++ [Event.opened handle single]) ((handle, single) :: held) where
  alive := by simp [holds.alive]
  opens := by
    intro other kind
    rw [List.mem_append, List.mem_singleton, Event.opened.injEq, holds.opens, List.mem_cons,
      Prod.mk.injEq, or_comm]
  unclosed := by simp [holds.unclosed]

theorem Holds.open_permitted_iff (holds : Holds log held) (handle : Handle) (single : Bool) :
    Permitted log (.opened handle single) ↔ (single = true → ∀ other, (other, true) ∉ held) := by
  cases single with
  | false => exact iff_of_true ⟨holds.alive, trivial⟩ (by simp)
  | true =>
      constructor
      · rintro ⟨-, closed⟩ - other member
        exact holds.unclosed other (closed other ((holds.opens other true).mpr member))
      · intro none
        refine ⟨holds.alive, fun other opened => ?_⟩
        exact absurd ((holds.opens other true).mp opened) (none rfl other)

/-- Handles are closed and the object ends: each of them is open and closed for the first
time, and no other is. -/
theorem continues_close_iff {closing : List Handle} (alive : .dropped ∉ log) :
    Continues log (closing.map .closed ++ [Event.dropped]) ↔
      closing.Nodup ∧ (∀ handle ∈ closing, .closed handle ∉ log) ∧
        ∀ handle single, .opened handle single ∈ log → .closed handle ∈ log ∨ handle ∈ closing := by
  induction closing generalizing log with
  | nil => simp [Continues, Permitted, alive]
  | cons first closing ih =>
      have aliveNext : .dropped ∉ log ++ [Event.closed first] := by simp [alive]
      rw [List.map_cons, List.cons_append, Continues, ih aliveNext, List.nodup_cons]
      simp only [Permitted, alive, not_false_eq_true, true_and, List.mem_append,
        List.mem_cons, List.not_mem_nil, or_false, Event.closed.injEq, not_or, forall_eq_or_imp,
        reduceCtorEq]
      constructor
      · rintro ⟨new, distinct, fresh, closed⟩
        refine ⟨⟨fun member => (fresh first member).2 rfl, distinct⟩, ⟨new, fun handle member =>
          (fresh handle member).1⟩, fun handle single opened => ?_⟩
        rcases closed handle single opened with (before | now) | later
        · exact .inl before
        · exact .inr (.inl now)
        · exact .inr (.inr later)
      · rintro ⟨⟨once, distinct⟩, ⟨new, fresh⟩, closed⟩
        refine ⟨new, distinct, fun handle member => ⟨fresh handle member, fun same => ?_⟩,
          fun handle single opened => ?_⟩
        · exact once (same ▸ member)
        · rcases closed handle single opened with before | now | later
          · exact .inl (.inl before)
          · exact .inl (.inr now)
          · exact .inr later

theorem Holds.continues_close (holds : Holds log held) {closing : List Handle}
    (distinct : closing.Nodup) (all : ∀ entry ∈ held, entry.1 ∈ closing) :
    Continues log (closing.map .closed ++ [Event.dropped]) := by
  refine (continues_close_iff holds.alive).mpr ⟨distinct, fun handle _ => holds.unclosed handle, ?_⟩
  intro handle single opened
  exact .inr (all _ ((holds.opens handle single).mp opened))

end

end LifeLog
