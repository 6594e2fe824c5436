import Mathlib.Data.List.Infix

/-!
Replacing every occurrence of a text in a text, from left to right and without
looking at what has been put in.
-/

namespace TextReplace

variable {Symbol : Type} [DecidableEq Symbol] (target replacement : List Symbol)

/-- The rest of the text, `skip` symbols of which belong to an occurrence. -/
def replaceLoop : Nat → List Symbol → List Symbol
  | _, [] => []
  | skip + 1, _ :: rest => replaceLoop skip rest
  | 0, symbol :: rest =>
      if target <+: symbol :: rest then replacement ++ replaceLoop (target.length - 1) rest
      else symbol :: replaceLoop 0 rest

def replace (text : List Symbol) : List Symbol :=
  replaceLoop target replacement 0 text

def cutsLoop : Nat → List Symbol → List (List Symbol)
  | _, [] => [[]]
  | skip + 1, _ :: rest => cutsLoop skip rest
  | 0, symbol :: rest =>
      if target <+: symbol :: rest then [] :: cutsLoop (target.length - 1) rest
      else (cutsLoop 0 rest).modifyHead (symbol :: ·)

def cuts (text : List Symbol) : List (List Symbol) :=
  cutsLoop target 0 text

theorem cutsLoop_ne_nil (skip : Nat) (text : List Symbol) : cutsLoop target skip text ≠ [] := by
  induction text generalizing skip with
  | nil => simp [cutsLoop]
  | cons symbol rest ih =>
      cases skip with
      | succ skip => exact ih skip
      | zero =>
          rw [cutsLoop]
          split
          · simp
          · simpa using ih 0

variable {target}

theorem replaceLoop_eq_intercalate (skip : Nat) (text : List Symbol) :
    replaceLoop target replacement skip text =
      replacement.intercalate (cutsLoop target skip text) := by
  induction text generalizing skip with
  | nil => simp [replaceLoop, cutsLoop]
  | cons symbol rest ih =>
      cases skip with
      | succ skip => exact ih skip
      | zero =>
          rw [replaceLoop, cutsLoop]
          split
          · rw [ih]
            obtain ⟨first, more, split⟩ :=
              List.exists_cons_of_ne_nil (cutsLoop_ne_nil target (target.length - 1) rest)
            simp [split, List.intercalate]
          · rw [ih]
            obtain ⟨first, more, split⟩ :=
              List.exists_cons_of_ne_nil (cutsLoop_ne_nil target 0 rest)
            rw [split]
            cases more <;> simp [List.intercalate]

/-- The replacement is put between the cuts. -/
theorem replace_eq_intercalate (text : List Symbol) :
    replace target replacement text = replacement.intercalate (cuts target text) :=
  replaceLoop_eq_intercalate replacement 0 text

omit [DecidableEq Symbol] in
theorem prefix_append_iff {breaker : Symbol} (foreign : breaker ∉ target)
    (first rest : List Symbol) : target <+: first ++ breaker :: rest ↔ target <+: first := by
  constructor
  · intro occurs
    rcases List.prefix_or_prefix_of_prefix occurs (List.prefix_append first (breaker :: rest)) with
      inside | ⟨tail, rfl⟩
    · exact inside
    · cases tail with
      | nil => simp
      | cons symbol tail =>
          rw [List.prefix_append_right_inj] at occurs
          obtain ⟨more, same⟩ := occurs
          rw [List.cons_append] at same
          obtain rfl := (List.cons.inj same).1
          exact absurd (by simp) foreign
  · intro inside
    exact inside.trans (List.prefix_append _ _)

theorem replaceLoop_break {breaker : Symbol} (foreign : breaker ∉ target)
    (skip : Nat) (first rest : List Symbol) (short : skip ≤ first.length) :
    replaceLoop target replacement skip (first ++ breaker :: rest) =
      replaceLoop target replacement skip first ++
        replaceLoop target replacement 0 (breaker :: rest) := by
  induction first generalizing skip with
  | nil =>
      obtain rfl : skip = 0 := by simpa using short
      simp [replaceLoop]
  | cons symbol first ih =>
      cases skip with
      | succ skip => exact ih skip (by simpa using short)
      | zero =>
          have same := prefix_append_iff foreign (symbol :: first) rest
          rw [List.cons_append] at same
          rw [List.cons_append, replaceLoop, replaceLoop]
          by_cases occurs : target <+: symbol :: first
          · have length := occurs.length_le
            rw [if_pos occurs, if_pos (same.mpr occurs), ih _ (by simp at length; omega),
              List.append_assoc]
          · rw [if_neg occurs, if_neg (mt same.mp occurs), ih 0 (by omega), List.cons_append]

/-- A symbol that the target does not hold stays, and no occurrence goes across it. -/
theorem replace_break {breaker : Symbol} (foreign : breaker ∉ target) (nonempty : target ≠ [])
    (first rest : List Symbol) :
    replace target replacement (first ++ breaker :: rest) =
      replace target replacement first ++ breaker :: replace target replacement rest := by
  have absent : ¬target <+: breaker :: rest := by
    intro occurs
    have inside := (prefix_append_iff foreign [] rest).mp occurs
    exact nonempty (List.prefix_nil.mp inside)
  rw [replace, replaceLoop_break replacement foreign 0 first rest (by omega), replaceLoop,
    if_neg absent]
  rfl

theorem replace_intercalate {breaker : Symbol} (foreign : breaker ∉ target)
    (nonempty : target ≠ []) (fields : List (List Symbol)) :
    replace target replacement ([breaker].intercalate fields) =
      [breaker].intercalate (fields.map (replace target replacement)) := by
  induction fields with
  | nil => rfl
  | cons field fields ih =>
      cases fields with
      | nil => simp
      | cons next fields =>
          have apart (head : List Symbol) (tail : List (List Symbol)) :
              [breaker].intercalate (head :: next :: tail) =
                head ++ breaker :: [breaker].intercalate (next :: tail) := by
            simp [List.intercalate]
          have apartMapped :
              [breaker].intercalate ((field :: next :: fields).map (replace target replacement)) =
                replace target replacement field ++ breaker ::
                  [breaker].intercalate ((next :: fields).map (replace target replacement)) := by
            simp [List.intercalate]
          rw [apart, replace_break replacement foreign nonempty, ih, apartMapped]

theorem replace_of_not_mem {head : Symbol} {tail text : List Symbol} (absent : head ∉ text) :
    replace (head :: tail) replacement text = text := by
  unfold replace
  induction text with
  | nil => rfl
  | cons symbol rest ih =>
      simp only [List.mem_cons, not_or] at absent
      have unequal : ¬head :: tail <+: symbol :: rest := by
        rw [List.cons_prefix_cons]
        exact fun occurs => absent.1 occurs.1
      rw [replaceLoop, if_neg unequal, ih absent.2]

/-! ### Cutting a joined text -/

/-- No occurrence begins inside of the part when the target follows it. -/
def Clear (target part : List Symbol) : Prop :=
  ∀ back, back <:+ part → back ≠ [] → ¬target <+: back ++ target

omit [DecidableEq Symbol] in
theorem clear_cons_iff {symbol : Symbol} {part : List Symbol} :
    Clear target (symbol :: part) ↔ ¬target <+: symbol :: part ++ target ∧ Clear target part := by
  constructor
  · intro clear
    refine ⟨clear _ (List.suffix_refl _) (by simp), fun back inside => ?_⟩
    exact clear back (inside.trans (List.suffix_cons symbol part))
  · rintro ⟨here, later⟩ back inside nonempty
    rcases List.suffix_cons_iff.mp inside with rfl | inside
    · exact here
    · exact later back inside nonempty

theorem cutsLoop_skip (first rest : List Symbol) :
    cutsLoop target first.length (first ++ rest) = cutsLoop target 0 rest := by
  induction first with
  | nil => rfl
  | cons symbol first ih => exact ih

theorem cuts_target (nonempty : target ≠ []) (rest : List Symbol) :
    cuts target (target ++ rest) = [] :: cuts target rest := by
  obtain ⟨head, tail, rfl⟩ := List.exists_cons_of_ne_nil nonempty
  have occurs : head :: tail <+: head :: (tail ++ rest) := List.prefix_append (head :: tail) rest
  rw [cuts, List.cons_append, cutsLoop, if_pos occurs]
  exact congrArg ([] :: ·) (cutsLoop_skip tail rest)

theorem cuts_append_iff (nonempty : target ≠ []) (part rest : List Symbol)
    (more : List (List Symbol)) :
    cuts target (part ++ (target ++ rest)) = part :: more ↔
      Clear target part ∧ cuts target rest = more := by
  induction part with
  | nil =>
      have clear : Clear target [] := fun back inside none => absurd (List.suffix_nil.mp inside) none
      rw [List.nil_append, cuts_target nonempty, List.cons.injEq]
      simp [clear]
  | cons symbol part ih =>
      have same : target <+: symbol :: (part ++ (target ++ rest)) ↔
          target <+: symbol :: part ++ target := by
        rw [← List.append_assoc, ← List.cons_append, ← List.cons_append]
        constructor
        · intro occurs
          refine List.prefix_of_prefix_length_le occurs (List.prefix_append _ _) ?_
          rw [List.length_append]
          omega
        · intro occurs
          exact occurs.trans (List.prefix_append _ _)
      rw [cuts, List.cons_append, cutsLoop, clear_cons_iff, ← same]
      by_cases occurs : target <+: symbol :: (part ++ (target ++ rest))
      · simp [occurs]
      · obtain ⟨first, others, split⟩ :=
          List.exists_cons_of_ne_nil (cutsLoop_ne_nil target 0 (part ++ (target ++ rest)))
        rw [cuts, split, List.cons.injEq] at ih
        rw [if_neg occurs, split, List.modifyHead_cons, List.cons.injEq, List.cons.injEq]
        simp [occurs, ih]

theorem cuts_of_absent {text : List Symbol} (absent : ¬target <:+: text) :
    cuts target text = [text] := by
  induction text with
  | nil => rfl
  | cons symbol rest ih =>
      have here : ¬target <+: symbol :: rest := fun occurs => absent occurs.isInfix
      have later : ¬target <:+: rest := fun occurs => absent (occurs.trans (List.suffix_cons ..).isInfix)
      rw [cuts, cutsLoop, if_neg here, ← cuts, ih later]
      rfl

theorem cuts_intercalate_iff (nonempty : target ≠ []) {parts : List (List Symbol)} {last : List Symbol}
    (absent : ¬target <:+: last) :
    cuts target (target.intercalate (parts ++ [last])) = parts ++ [last] ↔
      ∀ part ∈ parts, Clear target part := by
  induction parts with
  | nil => simp [cuts_of_absent absent]
  | cons part parts ih =>
      obtain ⟨second, others, split⟩ :=
        List.exists_cons_of_ne_nil (by simp : parts ++ [last] ≠ [])
      rw [List.cons_append, split, List.intercalate_cons_cons, ← split, List.append_assoc,
        cuts_append_iff nonempty, ih, List.forall_mem_cons]

theorem replaceLoop_self (nonempty : target ≠ []) (skip : Nat) (text : List Symbol) :
    replaceLoop target target skip text = text.drop skip := by
  induction text generalizing skip with
  | nil => simp [replaceLoop]
  | cons symbol rest ih =>
      cases skip with
      | succ skip => exact ih skip
      | zero =>
          rw [replaceLoop]
          split
          · rename_i occurs
            obtain ⟨tail, same⟩ := occurs
            have size : 0 < target.length := List.length_pos_iff.mpr nonempty
            have dropped : rest.drop (target.length - 1) = tail := by
              have whole : (symbol :: rest).drop target.length = tail := by
                rw [← same, List.drop_left]
              rwa [← Nat.sub_add_cancel size, List.drop_succ_cons] at whole
            rw [ih, dropped, same, List.drop_zero]
          · rw [ih, List.drop_zero, List.drop_zero]

theorem intercalate_cuts (nonempty : target ≠ []) (text : List Symbol) :
    target.intercalate (cuts target text) = text := by
  rw [← replace_eq_intercalate, replace, replaceLoop_self nonempty, List.drop_zero]

end TextReplace
