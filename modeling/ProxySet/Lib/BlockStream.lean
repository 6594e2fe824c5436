import Mathlib.Data.List.Basic

/-!
A stream that is processed in blocks of one size.  Symbols wait until they fill a
block, so it makes no difference in which pieces a text is fed.
-/

namespace BlockStream

variable {State Symbol : Type}

/-- What has been processed, and what waits for the rest of its block. -/
structure Held (State Symbol : Type) where
  state : State
  rest : List Symbol
deriving DecidableEq, Repr

variable (size : Nat) (process : State → List Symbol → State)

def push (held : Held State Symbol) (symbol : Symbol) : Held State Symbol :=
  if held.rest.length + 1 = size then
    { state := process held.state (held.rest ++ [symbol]), rest := [] }
  else { held with rest := held.rest ++ [symbol] }

def feed (held : Held State Symbol) (text : List Symbol) : Held State Symbol :=
  text.foldl (push size process) held

variable {size process} {held : Held State Symbol} {text front back : List Symbol}

@[simp] theorem feed_nil : feed size process held [] = held := rfl

theorem feed_append :
    feed size process held (front ++ back) = feed size process (feed size process held front) back :=
  List.foldl_append ..

theorem feed_short (short : held.rest.length + text.length < size) :
    feed size process held text = { held with rest := held.rest ++ text } := by
  induction text generalizing held with
  | nil => simp
  | cons symbol text ih =>
      simp only [List.length_cons] at short
      have room : held.rest.length + 1 ≠ size := by omega
      rw [feed, List.foldl_cons, push, if_neg room]
      change feed size process { held with rest := held.rest ++ [symbol] } text = _
      rw [ih (by simp only [List.length_append, List.length_singleton]; omega)]
      simp

theorem feed_block (filled : text ≠ []) (whole : held.rest.length + text.length = size) :
    feed size process held text = { state := process held.state (held.rest ++ text), rest := [] } := by
  obtain ⟨front, symbol, rfl⟩ := (List.eq_nil_or_concat text).resolve_left filled
  simp only [List.concat_eq_append, List.length_append, List.length_singleton] at whole
  have before : held.rest.length + front.length < size := by omega
  rw [List.concat_eq_append, feed_append, feed_short before]
  rw [feed, List.foldl_cons, List.foldl_nil, push, if_pos (by simp; omega)]
  simp

theorem length_push (short : held.rest.length < size) (symbol : Symbol) :
    (push size process held symbol).rest.length = (held.rest.length + 1) % size := by
  unfold push
  split
  · next full => simp [full]
  · next room =>
    rw [Nat.mod_eq_of_lt (by omega)]
    simp

theorem length_feed (short : held.rest.length < size) :
    (feed size process held text).rest.length = (held.rest.length + text.length) % size := by
  induction text generalizing held with
  | nil => simp [Nat.mod_eq_of_lt short]
  | cons symbol text ih =>
      have pushed : (push size process held symbol).rest.length = _ := length_push short symbol
      have positive : 0 < size := by omega
      change (feed size process (push size process held symbol) text).rest.length = _
      rw [ih (by rw [pushed]; exact Nat.mod_lt _ positive), pushed, Nat.mod_add_mod,
        List.length_cons]
      congr 1
      omega

end BlockStream
