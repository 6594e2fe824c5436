import Mathlib.Data.List.DropRight
import Mathlib.Data.List.Infix

/-!
Readers that take one token at a time from the front of a buffer, and the loop
that reads until it is told to stop or no whole token is left.  A reader decides
on what is in front only, so more input behind a token never changes it; that is
what makes the loop independent of how its input was cut into pieces.
-/

namespace TokenReader

structure Reader (Symbol Token : Type) where
  next : List Symbol → Option (Token × List Symbol)
  next_nil : next [] = none
  next_suffix : ∀ {buffer token rest}, next buffer = some (token, rest) → rest <:+ buffer
  next_append : ∀ {buffer token rest} (more : List Symbol), next buffer = some (token, rest) →
    next (buffer ++ more) = some (token, rest ++ more)
  next_late : ∀ {buffer more token rest}, next buffer = none →
    next (buffer ++ more) = some (token, rest) → rest.length < more.length

variable {Symbol Token State : Type}

theorem cut_unique {mark : Symbol} {front other rest more : List Symbol} (first : mark ∉ front)
    (second : mark ∉ other) (same : front ++ mark :: rest = other ++ mark :: more) :
    front = other ∧ rest = more := by
  induction front generalizing other with
  | nil =>
      cases other with
      | nil => exact ⟨rfl, (List.cons.inj same).2⟩
      | cons symbol other => simp [(List.cons.inj same).1] at second
  | cons symbol front ih =>
      cases other with
      | nil => simp [(List.cons.inj same).1] at first
      | cons otherSymbol other =>
          obtain ⟨rfl, later⟩ := List.cons.inj same
          simp only [List.mem_cons, not_or] at first second
          obtain ⟨rfl, rfl⟩ := ih first.2 second.2 later
          exact ⟨rfl, rfl⟩

theorem rdropWhile_append_of_pos {drops : Symbol → Bool} {text tail : List Symbol}
    (all : ∀ symbol ∈ tail, drops symbol = true) :
    (text ++ tail).rdropWhile drops = text.rdropWhile drops := by
  induction tail using List.reverseRecOn with
  | nil => rw [List.append_nil]
  | append_singleton tail symbol ih =>
      rw [← List.append_assoc, List.rdropWhile_concat_pos _ _ _ (all symbol (by simp))]
      exact ih fun other member => all other (by simp [member])

namespace Reader

variable (reader : Reader Symbol Token)

theorem next_shorter {buffer : List Symbol} {token : Token} {rest : List Symbol}
    (found : reader.next buffer = some (token, rest)) : rest.length < buffer.length :=
  reader.next_late reader.next_nil (by simpa using found)

/-- A token is whole in the first part exactly when it ends inside it. -/
theorem next_eq_none_iff_late {buffer more : List Symbol} {token : Token} {rest : List Symbol}
    (found : reader.next (buffer ++ more) = some (token, rest)) :
    reader.next buffer = none ↔ rest.length < more.length := by
  constructor
  · intro missing
    exact reader.next_late missing found
  · intro late
    cases early : reader.next buffer with
    | none => rfl
    | some pair =>
        obtain ⟨otherToken, otherRest⟩ := pair
        have whole := reader.next_append more early
        rw [found, Option.some.injEq, Prod.mk.injEq] at whole
        rw [whole.2, List.length_append] at late
        omega

variable (step : State → Token → State) (done : State → Bool)

def loop : Nat → State → List Symbol → State × List Symbol
  | 0, state, buffer => (state, buffer)
  | fuel + 1, state, buffer =>
      if done state then (state, buffer)
      else match reader.next buffer with
        | none => (state, buffer)
        | some (token, rest) => loop fuel (step state token) rest

/-- Every token takes at least one symbol, so the buffer's length bounds the loop. -/
def drain (state : State) (buffer : List Symbol) : State × List Symbol :=
  reader.loop step done buffer.length state buffer

theorem loop_stable (fuel : Nat) : ∀ (extra : Nat) (state : State) (buffer : List Symbol),
    buffer.length ≤ fuel →
      reader.loop step done (fuel + extra) state buffer = reader.loop step done fuel state buffer := by
  induction fuel with
  | zero =>
      intro extra state buffer short
      have empty : buffer = [] := List.length_eq_zero_iff.mp (by omega)
      subst empty
      cases extra with
      | zero => rfl
      | succ extra => simp [loop, reader.next_nil]
  | succ fuel ih =>
      intro extra state buffer short
      rw [Nat.succ_add]
      simp only [loop]
      split
      · rfl
      · cases found : reader.next buffer with
        | none => rfl
        | some pair =>
            obtain ⟨token, rest⟩ := pair
            have shorter := reader.next_shorter found
            exact ih extra (step state token) rest (by omega)

theorem drain_of_done {state : State} (stopped : done state = true) (buffer : List Symbol) :
    reader.drain step done state buffer = (state, buffer) := by
  unfold drain
  cases buffer with
  | nil => rfl
  | cons _ _ => simp [loop, stopped]

theorem drain_of_none {buffer : List Symbol} (missing : reader.next buffer = none)
    (state : State) : reader.drain step done state buffer = (state, buffer) := by
  unfold drain
  cases buffer with
  | nil => rfl
  | cons _ _ => simp [loop, missing]

theorem drain_of_some {state : State} {buffer : List Symbol} {token : Token} {rest : List Symbol}
    (running : done state = false) (found : reader.next buffer = some (token, rest)) :
    reader.drain step done state buffer = reader.drain step done (step state token) rest := by
  have shorter := reader.next_shorter found
  unfold drain
  obtain ⟨size, sizeEq⟩ : ∃ size, buffer.length = size + 1 := ⟨buffer.length - 1, by omega⟩
  rw [sizeEq, loop]
  simp only [running, Bool.false_eq_true, ↓reduceIte, found]
  obtain ⟨extra, extraEq⟩ : ∃ extra, size = rest.length + extra := ⟨size - rest.length, by omega⟩
  rw [extraEq]
  exact reader.loop_stable step done rest.length extra (step state token) rest (Nat.le_refl _)

theorem drain_induction {motive : State → List Symbol → Prop}
    (stop : ∀ state buffer, done state = true ∨ reader.next buffer = none → motive state buffer)
    (take : ∀ state buffer token rest, done state = false →
      reader.next buffer = some (token, rest) → motive (step state token) rest →
      motive state buffer) :
    ∀ state buffer, motive state buffer := by
  intro state buffer
  generalize sizeEq : buffer.length = size
  induction size using Nat.strongRecOn generalizing state buffer with
  | ind size ih =>
      by_cases stopped : done state = true
      · exact stop state buffer (Or.inl stopped)
      · cases found : reader.next buffer with
        | none => exact stop state buffer (Or.inr found)
        | some pair =>
            obtain ⟨token, rest⟩ := pair
            have shorter := reader.next_shorter found
            exact take state buffer token rest (by simpa using stopped) found
              (ih rest.length (by omega) (step state token) rest rfl)

theorem drain_stops (state : State) (buffer : List Symbol) :
    done (reader.drain step done state buffer).1 = true ∨
      reader.next (reader.drain step done state buffer).2 = none := by
  induction state, buffer using reader.drain_induction step done with
  | stop state buffer stopped =>
      rcases stopped with stopped | missing
      · exact Or.inl (by rw [reader.drain_of_done step done stopped]; exact stopped)
      · exact Or.inr (by rw [reader.drain_of_none step done missing]; exact missing)
  | take state buffer token rest running found ih =>
      rw [reader.drain_of_some step done running found]
      exact ih

theorem drain_invariant (holds : State → Prop)
    (kept : ∀ state token, done state = false → holds state → holds (step state token))
    (state : State) (buffer : List Symbol) (initial : holds state) :
    holds (reader.drain step done state buffer).1 := by
  induction state, buffer using reader.drain_induction step done with
  | stop state buffer stopped =>
      rcases stopped with stopped | missing
      · rw [reader.drain_of_done step done stopped]
        exact initial
      · rw [reader.drain_of_none step done missing]
        exact initial
  | take state buffer token rest running found ih =>
      rw [reader.drain_of_some step done running found]
      exact ih (kept state token running initial)

theorem drain_map {Wide : Type} (wideStep : Wide → Token → Wide) (wideDone : Wide → Bool)
    (project : Wide → State) (steps : ∀ wide token, project (wideStep wide token) = step (project wide) token)
    (stops : ∀ wide, done (project wide) = wideDone wide) (wide : Wide) (buffer : List Symbol) :
    reader.drain step done (project wide) buffer =
      (project (reader.drain wideStep wideDone wide buffer).1,
        (reader.drain wideStep wideDone wide buffer).2) := by
  induction wide, buffer using reader.drain_induction wideStep wideDone with
  | stop wide buffer stopped =>
      rcases stopped with stopped | missing
      · rw [reader.drain_of_done wideStep wideDone stopped,
          reader.drain_of_done step done ((stops wide).trans stopped)]
      · rw [reader.drain_of_none wideStep wideDone missing, reader.drain_of_none step done missing]
  | take wide buffer token rest running found ih =>
      rw [reader.drain_of_some wideStep wideDone running found,
        reader.drain_of_some step done ((stops wide).trans running) found, ← steps]
      exact ih

theorem drain_suffix (state : State) (buffer : List Symbol) :
    (reader.drain step done state buffer).2 <:+ buffer := by
  induction state, buffer using reader.drain_induction step done with
  | stop state buffer stopped =>
      rcases stopped with stopped | missing
      · rw [reader.drain_of_done step done stopped]
      · rw [reader.drain_of_none step done missing]
  | take state buffer token rest running found ih =>
      rw [reader.drain_of_some step done running found]
      exact ih.trans (reader.next_suffix found)

theorem drain_shorter {state : State} {buffer : List Symbol} (running : done state = false)
    (present : reader.next buffer ≠ none) :
    (reader.drain step done state buffer).2.length < buffer.length := by
  obtain ⟨⟨token, rest⟩, found⟩ := Option.ne_none_iff_exists'.mp present
  have shorter := reader.next_shorter found
  have left := (reader.drain_suffix step done (step state token) rest).length_le
  rw [reader.drain_of_some step done running found]
  omega

/-- Reading a buffer and then what arrives behind it is reading both at once. -/
theorem drain_append (state : State) (buffer more : List Symbol) :
    reader.drain step done state (buffer ++ more) =
      reader.drain step done (reader.drain step done state buffer).1
        ((reader.drain step done state buffer).2 ++ more) := by
  induction state, buffer using reader.drain_induction step done with
  | stop state buffer stopped =>
      rcases stopped with stopped | missing
      · rw [reader.drain_of_done step done stopped buffer]
      · rw [reader.drain_of_none step done missing state]
  | take state buffer token rest running found ih =>
      rw [reader.drain_of_some step done running found,
        reader.drain_of_some step done running (reader.next_append more found)]
      exact ih

/-- A loop that stops somewhere in a buffer stops inside the first part exactly when that part
reaches the place. -/
theorem drain_done_iff {state final : State} {buffer more rest : List Symbol}
    (whole : reader.drain step done state (buffer ++ more) = (final, rest))
    (stopped : done final = true) :
    done (reader.drain step done state buffer).1 = true ↔ more.length ≤ rest.length := by
  rw [reader.drain_append] at whole
  constructor
  · intro early
    rw [reader.drain_of_done step done early] at whole
    rw [← (Prod.mk.inj whole).2, List.length_append]
    omega
  · intro reaches
    by_contra running
    rw [Bool.not_eq_true] at running
    rcases reader.drain_stops step done state buffer with early | missing
    · simp [running] at early
    · cases found : reader.next ((reader.drain step done state buffer).2 ++ more) with
      | none =>
          rw [reader.drain_of_none step done found, Prod.mk.injEq] at whole
          simp [← whole.1, running] at stopped
      | some pair =>
          obtain ⟨token, after⟩ := pair
          have late := reader.next_late missing found
          rw [reader.drain_of_some step done running found] at whole
          have left := (reader.drain_suffix step done
            (step (reader.drain step done state buffer).1 token) after).length_le
          rw [whole] at left
          exact absurd (Nat.le_trans reaches left) (Nat.not_le.mpr late)

/-- The tokens stand one after the other at the front of the buffer. -/
inductive Reads : List Symbol → List Token → List Symbol → Prop where
  | stop (buffer : List Symbol) : Reads buffer [] buffer
  | token {buffer rest last : List Symbol} {token : Token} {tokens : List Token} :
      reader.next buffer = some (token, rest) → Reads rest tokens last →
      Reads buffer (token :: tokens) last

theorem Reads.append {reader : Reader Symbol Token} {buffer last : List Symbol} {tokens : List Token}
    (reads : reader.Reads buffer tokens last) (more : List Symbol) :
    reader.Reads (buffer ++ more) tokens (last ++ more) := by
  induction reads with
  | stop buffer => exact .stop _
  | token found _ ih => exact .token (reader.next_append more found) ih

theorem drain_of_reads {state : State} {buffer rest : List Symbol} {tokens : List Token}
    (reads : reader.Reads buffer tokens rest)
    (running : ∀ front token later, tokens = front ++ token :: later →
      done (front.foldl step state) = false)
    (stopped : done (tokens.foldl step state) = true) :
    reader.drain step done state buffer = (tokens.foldl step state, rest) := by
  induction reads generalizing state with
  | stop buffer => exact reader.drain_of_done step done stopped buffer
  | @token buffer rest last token tokens found _ ih =>
      have start : done state = false := running [] token tokens rfl
      rw [reader.drain_of_some step done start found]
      refine ih ?_ stopped
      intro front other later split
      exact running (token :: front) other later (by simp [split])

theorem drain_reads (state : State) (buffer : List Symbol) :
    ∃ tokens, reader.Reads buffer tokens (reader.drain step done state buffer).2 ∧
      (reader.drain step done state buffer).1 = tokens.foldl step state ∧
      ∀ front token later, tokens = front ++ token :: later → done (front.foldl step state) = false := by
  induction state, buffer using reader.drain_induction step done with
  | stop state buffer stopped =>
      refine ⟨[], ?_⟩
      rcases stopped with stopped | missing
      · rw [reader.drain_of_done step done stopped]
        exact ⟨.stop buffer, rfl, by simp⟩
      · rw [reader.drain_of_none step done missing]
        exact ⟨.stop buffer, rfl, by simp⟩
  | take state buffer token rest running found ih =>
      obtain ⟨tokens, reads, folded, early⟩ := ih
      rw [reader.drain_of_some step done running found]
      refine ⟨token :: tokens, .token found reads, folded, ?_⟩
      intro front other later split
      cases front with
      | nil => exact running
      | cons first front =>
          obtain ⟨rfl, splitRest⟩ := List.cons.inj split
          exact early front other later splitRest

end Reader

section Delimited

variable [DecidableEq Symbol]

def splitAtFirst (delimiter : Symbol) : List Symbol → Option (List Symbol × List Symbol)
  | [] => none
  | symbol :: rest =>
      if symbol = delimiter then some ([], rest)
      else (splitAtFirst delimiter rest).map fun pair => (symbol :: pair.1, pair.2)

theorem splitAtFirst_eq_some_iff (delimiter : Symbol) (buffer front rest : List Symbol) :
    splitAtFirst delimiter buffer = some (front, rest) ↔
      delimiter ∉ front ∧ buffer = front ++ delimiter :: rest := by
  induction buffer generalizing front with
  | nil => simp [splitAtFirst]
  | cons symbol buffer ih =>
      simp only [splitAtFirst]
      by_cases same : symbol = delimiter
      · subst same
        simp only [↓reduceIte, Option.some.injEq, Prod.mk.injEq]
        constructor
        · rintro ⟨frontEq, restEq⟩
          simp [← frontEq, restEq]
        · rintro ⟨absent, whole⟩
          cases front with
          | nil => simpa using whole
          | cons first front =>
              simp only [List.cons_append, List.cons.injEq] at whole
              exact (absent (by simp [whole.1])).elim
      · simp only [same, ↓reduceIte, Option.map_eq_some_iff, Prod.exists, Prod.mk.injEq]
        constructor
        · rintro ⟨inner, after, found, frontEq, restEq⟩
          obtain ⟨absent, whole⟩ := (ih inner).mp (restEq ▸ found)
          subst frontEq
          exact ⟨by simp [Ne.symm same, absent], by simp [whole]⟩
        · rintro ⟨absent, whole⟩
          cases front with
          | nil => exact (same (by simpa using (List.cons.inj whole).1)).elim
          | cons first front =>
              simp only [List.cons_append, List.cons.injEq] at whole
              simp only [List.mem_cons, not_or] at absent
              exact ⟨front, rest, (ih front).mpr ⟨absent.2, whole.2⟩, by rw [whole.1], rfl⟩

theorem splitAtFirst_eq_none_iff (delimiter : Symbol) (buffer : List Symbol) :
    splitAtFirst delimiter buffer = none ↔ delimiter ∉ buffer := by
  induction buffer with
  | nil => simp [splitAtFirst]
  | cons symbol buffer ih =>
      simp only [splitAtFirst]
      by_cases same : symbol = delimiter
      · simp [same]
      · simp [same, ih, Ne.symm same]

/-- Tokens that end in a delimiter; `finish` makes the token from the symbols before it. -/
def Reader.delimited (delimiter : Symbol) (finish : List Symbol → Token) : Reader Symbol Token where
  next buffer := (splitAtFirst delimiter buffer).map fun pair => (finish pair.1, pair.2)
  next_nil := rfl
  next_suffix := by
    intro buffer token rest found
    simp only [Option.map_eq_some_iff, Prod.exists, Prod.mk.injEq] at found
    obtain ⟨front, after, split, -, rfl⟩ := found
    obtain ⟨-, rfl⟩ := (splitAtFirst_eq_some_iff _ _ _ _).mp split
    exact ⟨front ++ [delimiter], by simp⟩
  next_append := by
    intro buffer token rest more found
    simp only [Option.map_eq_some_iff, Prod.exists, Prod.mk.injEq] at found ⊢
    obtain ⟨front, after, split, tokenEq, rfl⟩ := found
    obtain ⟨absent, rfl⟩ := (splitAtFirst_eq_some_iff _ _ _ _).mp split
    exact ⟨front, after ++ more, (splitAtFirst_eq_some_iff _ _ _ _).mpr ⟨absent, by simp⟩,
      tokenEq, rfl⟩
  next_late := by
    intro buffer more token rest missing found
    simp only [Option.map_eq_none_iff, splitAtFirst_eq_none_iff] at missing
    simp only [Option.map_eq_some_iff, Prod.exists, Prod.mk.injEq] at found
    obtain ⟨front, after, split, -, rfl⟩ := found
    obtain ⟨-, whole⟩ := (splitAtFirst_eq_some_iff _ _ _ _).mp split
    -- The delimiter is not in the buffer, so it lies behind its end.
    rcases List.append_eq_append_iff.mp whole with ⟨extra, -, moreEq⟩ | ⟨extra, bufferEq, tailEq⟩
    · simp [moreEq]
      omega
    · cases extra with
      | nil =>
          rw [List.nil_append] at tailEq
          simp [← tailEq]
      | cons first extra =>
          simp only [List.cons_append, List.cons.injEq] at tailEq
          exact (missing (by simp [bufferEq, tailEq.1])).elim

theorem delimited_next_eq_none_iff (delimiter : Symbol) (finish : List Symbol → Token)
    (buffer : List Symbol) :
    (Reader.delimited delimiter finish).next buffer = none ↔ delimiter ∉ buffer := by
  simp [Reader.delimited, splitAtFirst_eq_none_iff]

theorem delimited_next_eq_some_iff (delimiter : Symbol) (finish : List Symbol → Token)
    (buffer : List Symbol) (token : Token) (rest : List Symbol) :
    (Reader.delimited delimiter finish).next buffer = some (token, rest) ↔
      ∃ front, delimiter ∉ front ∧ buffer = front ++ delimiter :: rest ∧ finish front = token := by
  simp only [Reader.delimited, Option.map_eq_some_iff, Prod.exists, Prod.mk.injEq,
    splitAtFirst_eq_some_iff]
  constructor
  · rintro ⟨front, after, ⟨absent, whole⟩, tokenEq, rfl⟩
    exact ⟨front, absent, whole, tokenEq⟩
  · rintro ⟨front, absent, whole, tokenEq⟩
    exact ⟨front, rest, ⟨absent, whole⟩, tokenEq, rfl⟩

end Delimited

end TokenReader
