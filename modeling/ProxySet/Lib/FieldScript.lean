import Mathlib.Data.List.Basic

/-!
Scripts of fields.  A script asks for a field of a certain size and goes on
according to what it says, until it accepts or rejects.  How a text is heard
depends only on the place in the script that its fields reach.
-/

namespace FieldScript

variable {Symbol : Type}

inductive Script (Symbol : Type) where
  | accept
  | reject
  | need (count : Nat) (next : List Symbol → Script Symbol)

inductive Heard (Symbol : Type) where
  | short
  | rejected
  | accepted (rest : List Symbol)

namespace Script

def hear : Script Symbol → List Symbol → Heard Symbol
  | .accept, text => .accepted text
  | .reject, _ => .rejected
  | .need count next, text =>
      if count ≤ text.length then (next (text.take count)).hear (text.drop count) else .short

/-- The fields that lead from one place of a script to another. -/
inductive Reaches : Script Symbol → List Symbol → Script Symbol → Prop where
  | here (script : Script Symbol) : Reaches script [] script
  | need {count : Nat} {next : List Symbol → Script Symbol} {last : Script Symbol}
      {field text : List Symbol} : field.length = count → Reaches (next field) text last →
      Reaches (.need count next) (field ++ text) last

variable {script last : Script Symbol} {count : Nat} {next : List Symbol → Script Symbol}
  {front text rest field : List Symbol}

theorem Reaches.step (reaches : Reaches script front (.need count next))
    (size : field.length = count) : Reaches script (front ++ field) (next field) := by
  generalize lastEq : Script.need count next = last at reaches
  induction reaches with
  | here script =>
      subst lastEq
      simpa using Reaches.need size (.here _)
  | need first _ ih =>
      rw [List.append_assoc]
      exact .need first (ih lastEq)

@[simp] theorem reaches_accept_iff : Reaches (.accept : Script Symbol) text last ↔
    text = [] ∧ last = .accept := by
  constructor
  · rintro ⟨⟩
    exact ⟨rfl, rfl⟩
  · rintro ⟨rfl, rfl⟩
    exact .here _

@[simp] theorem reaches_reject_iff : Reaches (.reject : Script Symbol) text last ↔
    text = [] ∧ last = .reject := by
  constructor
  · rintro ⟨⟩
    exact ⟨rfl, rfl⟩
  · rintro ⟨rfl, rfl⟩
    exact .here _

theorem reaches_need_iff : Reaches (.need count next) text last ↔
    (text = [] ∧ last = .need count next) ∨
      ∃ field rest, field.length = count ∧ text = field ++ rest ∧ Reaches (next field) rest last := by
  constructor
  · intro reaches
    cases reaches with
    | here => exact Or.inl ⟨rfl, rfl⟩
    | need size later => exact Or.inr ⟨_, _, size, rfl, later⟩
  · rintro (⟨rfl, rfl⟩ | ⟨field, rest, size, rfl, later⟩)
    · exact .here _
    · exact .need size later

theorem hear_of_reaches (reaches : Reaches script front last) (rest : List Symbol) :
    script.hear (front ++ rest) = last.hear rest := by
  induction reaches with
  | here => rfl
  | need size _ ih =>
      subst size
      simpa [hear] using ih

theorem hear_need_of_short (small : text.length < count) : (need count next).hear text = .short := by
  simp [hear, Nat.not_le.mpr small]

/-- What is heard comes from the place that the whole fields of the text reach. -/
theorem exists_reaches (script : Script Symbol) (text : List Symbol) :
    ∃ front rest last, Reaches script front last ∧ text = front ++ rest ∧
      ∀ count next, last = .need count next → rest.length < count := by
  induction script generalizing text with
  | accept => exact ⟨[], text, .accept, .here _, rfl, nofun⟩
  | reject => exact ⟨[], text, .reject, .here _, rfl, nofun⟩
  | need count next ih =>
      by_cases enough : count ≤ text.length
      · obtain ⟨front, rest, last, reaches, split, small⟩ := ih (text.take count) (text.drop count)
        refine ⟨text.take count ++ front, rest, last, ?_, ?_, small⟩
        · exact .need (List.length_take_of_le enough) reaches
        · rw [List.append_assoc, ← split, List.take_append_drop]
      · refine ⟨[], text, .need count next, .here _, rfl, ?_⟩
        rintro _ _ ⟨rfl, rfl⟩
        exact Nat.lt_of_not_le enough

theorem hear_eq_accepted_iff :
    script.hear text = .accepted rest ↔ ∃ front, Reaches script front .accept ∧ text = front ++ rest := by
  constructor
  · intro heard
    obtain ⟨front, after, last, reaches, rfl, small⟩ := exists_reaches script text
    rw [hear_of_reaches reaches] at heard
    cases last with
    | accept =>
        obtain rfl := Heard.accepted.inj heard
        exact ⟨front, reaches, rfl⟩
    | reject => simp [hear] at heard
    | need count next => simp [hear_need_of_short (small count next rfl)] at heard
  · rintro ⟨front, reaches, rfl⟩
    rw [hear_of_reaches reaches]
    rfl

theorem hear_eq_rejected_iff :
    script.hear text = .rejected ↔
      ∃ front rest, Reaches script front .reject ∧ text = front ++ rest := by
  constructor
  · intro heard
    obtain ⟨front, after, last, reaches, rfl, small⟩ := exists_reaches script text
    rw [hear_of_reaches reaches] at heard
    cases last with
    | accept => simp [hear] at heard
    | reject => exact ⟨front, after, reaches, rfl⟩
    | need count next => simp [hear_need_of_short (small count next rfl)] at heard
  · rintro ⟨front, rest, reaches, rfl⟩
    rw [hear_of_reaches reaches]
    rfl

end Script

end FieldScript
