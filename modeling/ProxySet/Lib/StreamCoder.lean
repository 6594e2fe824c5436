import Mathlib.Data.List.Basic

/-!
Coders that turn a stream into another one symbol by symbol, with a state that
goes on from one piece of the stream to the next.  The coded stream does not
depend on the pieces, so a decoder may take it in other pieces than it was made in.
-/

structure StreamCoder (State Symbol Code : Type) where
  next : State → Symbol → Code × State

namespace StreamCoder

variable {State Other Symbol Code : Type} (coder : StreamCoder State Symbol Code)
  {decoder : StreamCoder Other Code Symbol} {related : State → Other → Prop}

def code : State → List Symbol → List Code
  | _, [] => []
  | state, symbol :: rest => (coder.next state symbol).1 :: code (coder.next state symbol).2 rest

def after : State → List Symbol → State
  | state, [] => state
  | state, symbol :: rest => after (coder.next state symbol).2 rest

def codePieces : State → List (List Symbol) → List (List Code)
  | _, [] => []
  | state, piece :: rest => coder.code state piece :: codePieces (coder.after state piece) rest

@[simp] theorem code_nil (state : State) : coder.code state [] = [] := rfl

@[simp] theorem after_nil (state : State) : coder.after state [] = state := rfl

@[simp] theorem length_code (state : State) (text : List Symbol) :
    (coder.code state text).length = text.length := by
  induction text generalizing state with
  | nil => rfl
  | cons symbol rest ih => simp [code, ih]

theorem code_append (state : State) (front back : List Symbol) :
    coder.code state (front ++ back) =
      coder.code state front ++ coder.code (coder.after state front) back := by
  induction front generalizing state with
  | nil => rfl
  | cons symbol rest ih => simp [code, after, ih]

theorem after_append (state : State) (front back : List Symbol) :
    coder.after state (front ++ back) = coder.after (coder.after state front) back := by
  induction front generalizing state with
  | nil => rfl
  | cons symbol rest ih => exact ih _

theorem flatten_codePieces (state : State) (pieces : List (List Symbol)) :
    (coder.codePieces state pieces).flatten = coder.code state pieces.flatten := by
  induction pieces generalizing state with
  | nil => rfl
  | cons piece rest ih => simp [codePieces, ih, code_append]

/-- In related states the decoder gives back the symbol that was coded, and the states stay
related. -/
structure Undoes (decoder : StreamCoder Other Code Symbol) (related : State → Other → Prop) :
    Prop where
  symbol {state : State} {other : Other} (symbol : Symbol) : related state other →
    (decoder.next other (coder.next state symbol).1).1 = symbol
  related {state : State} {other : Other} (symbol : Symbol) : related state other →
    related (coder.next state symbol).2 (decoder.next other (coder.next state symbol).1).2

variable {coder}

theorem Undoes.code (undoes : coder.Undoes decoder related) (text : List Symbol) :
    ∀ {state : State} {other : Other}, related state other →
      decoder.code other (coder.code state text) = text := by
  induction text with
  | nil =>
      intro state other _
      rfl
  | cons symbol rest ih =>
      intro state other paired
      have first := undoes.symbol symbol paired
      have later := ih (undoes.related symbol paired)
      simp only [StreamCoder.code, first, later]

/-- Whatever pieces the coded stream arrives in, the decoded pieces make up the text. -/
theorem Undoes.codePieces (undoes : coder.Undoes decoder related) {state : State} {other : Other}
    (paired : related state other) {pieces : List (List Symbol)} {arrived : List (List Code)}
    (same : arrived.flatten = (coder.codePieces state pieces).flatten) :
    (decoder.codePieces other arrived).flatten = pieces.flatten := by
  rw [flatten_codePieces, same, flatten_codePieces]
  exact undoes.code _ paired

end StreamCoder
