import Mathlib.Data.List.Basic

/-!
One direction of a relay with a bounded queue and half-close.  Symbols arrive at
`pending`, move to `queued`, and leave through `delivered`.  The source is paused
while the queue is at the limit, and the target is closed once the source has
ended.  `closes` keeps, for each close, whether the source had ended and what was
still pending and queued.
-/

structure RelayFlow (Symbol : Type) where
  received : List Symbol
  pending : List Symbol
  queued : List Symbol
  delivered : List Symbol
  reading : Bool
  ended : Bool
  closed : Bool
  woken : Bool
  closes : List (Bool × List Symbol × List Symbol)

namespace RelayFlow

variable {Symbol : Type} {limit : Nat} {flow next : RelayFlow Symbol}

inductive Step (limit : Nat) (flow : RelayFlow Symbol) : RelayFlow Symbol → Prop where
  | idle : Step limit flow flow
  | forward (chunk : List Symbol) : flow.reading = true →
      flow.pending.length + chunk.length ≤ limit → flow.queued.length < limit →
      Step limit flow { flow with
        received := flow.received ++ chunk
        queued := flow.queued ++ (flow.pending ++ chunk)
        pending := [] }
  | pause (chunk : List Symbol) : flow.reading = true →
      flow.pending.length + chunk.length ≤ limit → limit ≤ flow.queued.length →
      Step limit flow { flow with
        received := flow.received ++ chunk
        pending := flow.pending ++ chunk
        reading := false }
  | send (count : Nat) : flow.closed = false → flow.queued.drop count ≠ [] →
      Step limit flow { flow with
        queued := flow.queued.drop count
        delivered := flow.delivered ++ flow.queued.take count }
  | wake : flow.closed = false → ¬(flow.pending = [] ∧ flow.ended = true) →
      Step limit flow { flow with
        queued := flow.pending
        pending := []
        delivered := flow.delivered ++ flow.queued
        reading := flow.reading || !flow.ended
        woken := true }
  | finish : flow.closed = false → flow.pending = [] → flow.ended = true →
      Step limit flow { flow with
        queued := []
        delivered := flow.delivered ++ flow.queued
        closed := true
        woken := true
        closes := (true, [], []) :: flow.closes }
  | eof : flow.reading = true → flow.pending.length < limit → flow.queued ≠ [] →
      Step limit flow { flow with reading := false, ended := true }
  | eofClose : flow.reading = true → flow.pending.length < limit → flow.queued = [] →
      Step limit flow { flow with
        reading := false
        ended := true
        closed := true
        closes := (true, flow.pending, []) :: flow.closes }

/-- What is queued and pending, and then what arrives, leaves in order. -/
def Carries (flow next : RelayFlow Symbol) : Prop :=
  ∃ arrived left, next.received = flow.received ++ arrived ∧
    next.delivered = flow.delivered ++ left ∧
    left ++ next.queued ++ next.pending = flow.queued ++ flow.pending ++ arrived

theorem Carries.refl (flow : RelayFlow Symbol) : flow.Carries flow :=
  ⟨[], [], by simp, by simp, by simp⟩

theorem Carries.trans {final : RelayFlow Symbol} (first : flow.Carries next)
    (second : next.Carries final) : flow.Carries final := by
  obtain ⟨arrived, left, receivedEq, deliveredEq, whole⟩ := first
  obtain ⟨later, leftLater, receivedLater, deliveredLater, wholeLater⟩ := second
  refine ⟨arrived ++ later, left ++ leftLater, ?_, ?_, ?_⟩
  · rw [receivedLater, receivedEq, List.append_assoc]
  · rw [deliveredLater, deliveredEq, List.append_assoc]
  · calc left ++ leftLater ++ final.queued ++ final.pending
        = left ++ (leftLater ++ final.queued ++ final.pending) := by simp
      _ = left ++ next.queued ++ next.pending ++ later := by rw [wholeLater]; simp
      _ = flow.queued ++ flow.pending ++ (arrived ++ later) := by rw [whole]; simp

theorem Step.carries (taken : Step limit flow next) : flow.Carries next := by
  cases taken with
  | idle => exact Carries.refl flow
  | forward chunk => exact ⟨chunk, [], by simp⟩
  | pause chunk => exact ⟨chunk, [], by simp⟩
  | send count => exact ⟨[], flow.queued.take count, by simp⟩
  | wake => exact ⟨[], flow.queued, by simp⟩
  | finish _ empty => exact ⟨[], flow.queued, by simp [empty]⟩
  | eof => exact ⟨[], [], by simp⟩
  | eofClose => exact ⟨[], [], by simp⟩

theorem Step.queues (taken : Step limit flow next) :
    flow.delivered ++ flow.queued <+: next.delivered ++ next.queued := by
  cases taken with
  | idle => exact List.prefix_rfl
  | forward chunk => exact ⟨flow.pending ++ chunk, by simp⟩
  | pause chunk => exact List.prefix_rfl
  | send count => exact ⟨[], by simp⟩
  | wake => exact List.prefix_append _ _
  | finish => exact List.prefix_append _ _
  | eof => exact List.prefix_rfl
  | eofClose => exact List.prefix_rfl

theorem Carries.hold (carries : flow.Carries next) (reading : Bool) :
    flow.Carries { next with reading := reading } :=
  carries

/-- Nothing pending can be overlooked by an end of the source: it is behind a queue that still has
to drain, or the source is held back by it. -/
def Covered (limit : Nat) (flow : RelayFlow Symbol) : Prop :=
  flow.pending = [] ∨ flow.queued ≠ [] ∨ flow.ended = true ∨ limit ≤ flow.pending.length

instance (limit : Nat) [DecidableEq Symbol] (flow : RelayFlow Symbol) :
    Decidable (flow.Covered limit) :=
  inferInstanceAs (Decidable (_ ∨ _ ∨ _ ∨ _))

/-- The target is closed only behind the last symbol. -/
structure Orderly (limit : Nat) (flow : RelayFlow Symbol) : Prop where
  covered : flow.Covered limit
  silent : flow.ended = true → flow.reading = false
  closed : flow.closed = true → flow.ended = true ∧ flow.pending = [] ∧ flow.queued = []
  closes : ∀ close ∈ flow.closes, close = (true, [], [])

theorem Step.orderly (positive : 0 < limit) (taken : Step limit flow next)
    (orderly : flow.Orderly limit) : next.Orderly limit := by
  have reads : flow.reading = true → flow.ended = false := by
    intro reading
    by_contra ended
    simp [orderly.silent (by simpa using ended)] at reading
  cases taken with
  | idle => exact orderly
  | forward chunk reading =>
      refine ⟨Or.inl rfl, orderly.silent, ?_, orderly.closes⟩
      intro closed
      exact absurd (orderly.closed closed).1 (by simp [reads reading])
  | pause chunk reading bound full =>
      refine ⟨Or.inr (Or.inl ?_), fun _ => rfl, ?_, orderly.closes⟩
      · exact List.ne_nil_of_length_pos (Nat.lt_of_lt_of_le positive full)
      · intro closed
        exact absurd (orderly.closed closed).1 (by simp [reads reading])
  | send count unclosed more =>
      exact ⟨Or.inr (Or.inl more), orderly.silent, fun closed => by simp [unclosed] at closed,
        orderly.closes⟩
  | wake unclosed =>
      refine ⟨Or.inl rfl, ?_, fun closed => by simp [unclosed] at closed, orderly.closes⟩
      intro ended
      simp [orderly.silent ended, show flow.ended = true from ended]
  | finish unclosed empty ended =>
      refine ⟨Or.inl empty, orderly.silent, fun _ => ⟨ended, empty, rfl⟩, ?_⟩
      simpa using orderly.closes
  | eof reading bound more =>
      refine ⟨Or.inr (Or.inl more), fun _ => rfl, ?_, orderly.closes⟩
      intro closed
      exact absurd (orderly.closed closed).1 (by simp [reads reading])
  | eofClose reading bound drained =>
      have empty : flow.pending = [] := by
        rcases orderly.covered with empty | more | ended | long
        · exact empty
        · exact absurd drained more
        · simp [reads reading] at ended
        · omega
      refine ⟨Or.inl empty, fun _ => rfl, fun _ => ⟨rfl, empty, drained⟩, ?_⟩
      simpa [empty] using orderly.closes

theorem Orderly.hold (orderly : flow.Orderly limit) (reading : Bool) :
    Orderly limit { flow with reading := flow.reading && reading } :=
  ⟨orderly.covered, fun ended => by simp [orderly.silent ended], orderly.closed, orderly.closes⟩

/-- The source is read only while nothing is pending, and a pause ends with the next drain. -/
structure Throttled (flow : RelayFlow Symbol) : Prop where
  moved : flow.woken = true → flow.reading = true → flow.pending = []
  resumes : flow.reading = false → flow.ended = false → flow.queued ≠ [] ∧ flow.closed = false
  ended : flow.closed = true → flow.ended = true

theorem Step.throttled (positive : 0 < limit) (taken : Step limit flow next)
    (throttled : flow.Throttled) : next.Throttled := by
  have opened : flow.ended = false → flow.closed = false := by
    intro unended
    by_contra closed
    simp [throttled.ended (by simpa using closed)] at unended
  cases taken with
  | idle => exact throttled
  | forward chunk reading =>
      exact ⟨fun _ _ => rfl, fun paused => by simp [reading] at paused, throttled.ended⟩
  | pause chunk reading bound full =>
      refine ⟨fun _ paused => by simp at paused, fun _ unended => ⟨?_, opened unended⟩,
        throttled.ended⟩
      exact List.ne_nil_of_length_pos (Nat.lt_of_lt_of_le positive full)
  | send count unclosed more =>
      exact ⟨throttled.moved, fun _ _ => ⟨more, unclosed⟩, throttled.ended⟩
  | wake unclosed =>
      exact ⟨fun _ _ => rfl, fun paused unended => by simp_all, throttled.ended⟩
  | finish unclosed empty ended =>
      exact ⟨fun _ _ => empty, fun _ unended => by simp [ended] at unended, fun _ => ended⟩
  | eof => exact ⟨fun _ paused => by simp at paused, fun _ unended => by simp at unended, fun _ => rfl⟩
  | eofClose =>
      exact ⟨fun _ paused => by simp at paused, fun _ unended => by simp at unended, fun _ => rfl⟩

/-- One full read on top of a queue that had room for one more symbol. -/
structure Bounded (limit : Nat) (flow : RelayFlow Symbol) : Prop where
  pending : flow.pending.length ≤ limit
  queued : flow.queued.length ≤ (limit - 1) + limit

theorem Step.bounded (positive : 0 < limit) (taken : Step limit flow next)
    (bounded : flow.Bounded limit) : next.Bounded limit := by
  obtain ⟨pendingBound, queuedBound⟩ := bounded
  cases taken with
  | idle => exact ⟨pendingBound, queuedBound⟩
  | forward chunk _ bound room =>
      refine ⟨by simp, ?_⟩
      simp only [List.length_append]
      omega
  | pause chunk _ bound =>
      refine ⟨?_, queuedBound⟩
      simpa using bound
  | send count =>
      refine ⟨pendingBound, ?_⟩
      simp only [List.length_drop]
      omega
  | wake => exact ⟨by simp, by simp only; omega⟩
  | finish => exact ⟨pendingBound, by simp⟩
  | eof => exact ⟨pendingBound, queuedBound⟩
  | eofClose => exact ⟨pendingBound, queuedBound⟩

end RelayFlow
