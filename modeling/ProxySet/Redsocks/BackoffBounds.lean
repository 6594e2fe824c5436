import ProxySet.Redsocks.Backoff
import Mathlib.Data.Nat.Prime.Basic

/-!
The numbers of the back-off over consecutive failures of `accept`.  The doubling is done
in sixteen bits, before the clamp, so it comes out smaller than what it started from once the
delay has its highest bit.
-/

namespace ProxySet.Backoff

abbrev Failure := Nat × Int

def afterFailures (failures : List Failure) (self : Instance) : Instance :=
  failures.foldl (fun current failure => backOff failure.1 failure.2 current) self

/-- The bounds are those that `redsocks_onexit` accepts, and no `accept` has failed. -/
structure Configured (inst : Instance) : Prop where
  positive : 0 < inst.minBackoffMs
  less : inst.minBackoffMs < inst.maxBackoffMs
  small : inst.maxBackoffMs ≤ 65535
  start : inst.acceptBackoffMs = 0

/-- What a failure should do to the delay. -/
structure Grows (before after : Instance) : Prop where
  lower : before.minBackoffMs ≤ after.acceptBackoffMs
  upper : after.acceptBackoffMs ≤ before.maxBackoffMs
  monotone : before.acceptBackoffMs ≤ after.acceptBackoffMs
  stays : before.acceptBackoffMs = before.maxBackoffMs →
    after.acceptBackoffMs = before.maxBackoffMs
  modulus : after.acceptBackoffMs ≠ 0
  delay : ∃ delay, after.acceptBackoff.queued = .inserted (some delay) ∧ 1 ≤ delay ∧
    delay ≤ after.acceptBackoffMs

/-- After any number of failures, the next one does that. -/
def Steady (self : Instance) : Prop :=
  ∀ (failures : List Failure) (random : Nat) (stamp : Int),
    Grows (afterFailures failures self) (backOff random stamp (afterFailures failures self))

/-- The doubling never wraps round, or never matters, or meets the largest number exactly. -/
def Harmless (low high : Nat) : Prop :=
  high < 2 ^ 15 ∨ 2 ^ 15 ≤ low ∨ (high = 2 ^ 16 - 1 ∧ ∃ exponent, low + 1 = 2 ^ exponent)

/-! ### One failure -/

def nextDelay (low high delay : Nat) : Nat :=
  clampValue ((delay * 2 + 1) % 2 ^ 16) low high

theorem backOff_delay (random : Nat) (stamp : Int) (self : Instance) :
    (backOff random stamp self).acceptBackoffMs =
      nextDelay self.minBackoffMs self.maxBackoffMs self.acceptBackoffMs := rfl

theorem nextDelay_bounds {low high : Nat} (less : low < high) (delay : Nat) :
    low ≤ nextDelay low high delay ∧ nextDelay low high delay ≤ high := by
  unfold nextDelay clampValue
  dsimp only
  split <;> split <;> omega

theorem nextDelay_small {low high delay : Nat} (less : low < high) (small : delay < 2 ^ 15) :
    nextDelay low high delay = max low (min (delay * 2 + 1) high) := by
  have whole : (delay * 2 + 1) % 2 ^ 16 = delay * 2 + 1 := Nat.mod_eq_of_lt (by omega)
  unfold nextDelay clampValue
  rw [whole]
  dsimp only
  split <;> split <;> omega

theorem nextDelay_large {low high delay : Nat} (less : low < high) (large : 2 ^ 15 ≤ delay)
    (most : delay ≤ high) (fits : high ≤ 65535) :
    nextDelay low high delay = max low (delay * 2 + 1 - 2 ^ 16) := by
  have wrapped : (delay * 2 + 1) % 2 ^ 16 = delay * 2 + 1 - 2 ^ 16 := by omega
  unfold nextDelay clampValue
  rw [wrapped]
  dsimp only
  split <;> split <;> omega

theorem grows_iff {self : Instance} (less : self.minBackoffMs < self.maxBackoffMs)
    (positive : 0 < self.minBackoffMs) (random : Nat) (stamp : Int) :
    Grows self (backOff random stamp self) ↔ self.acceptBackoffMs ≤
      nextDelay self.minBackoffMs self.maxBackoffMs self.acceptBackoffMs := by
  obtain ⟨lower, upper⟩ := nextDelay_bounds less self.acceptBackoffMs
  constructor
  · intro grows
    exact grows.monotone
  · intro monotone
    have modulus : nextDelay self.minBackoffMs self.maxBackoffMs self.acceptBackoffMs ≠ 0 := by
      omega
    refine ⟨lower, upper, monotone, ?_, modulus, _, rfl, by omega, ?_⟩
    · intro full
      rw [backOff_delay]
      omega
    · have less := Nat.mod_lt random (Nat.pos_of_ne_zero modulus)
      exact less

/-! ### Consecutive failures -/

def delayAfter (low high count : Nat) : Nat :=
  (nextDelay low high)^[count] 0

theorem delayAfter_succ (low high count : Nat) :
    delayAfter low high (count + 1) = nextDelay low high (delayAfter low high count) :=
  Function.iterate_succ_apply' ..

theorem afterFailures_bounds (failures : List Failure) (self : Instance) :
    (afterFailures failures self).minBackoffMs = self.minBackoffMs ∧
      (afterFailures failures self).maxBackoffMs = self.maxBackoffMs := by
  induction failures generalizing self with
  | nil => exact ⟨rfl, rfl⟩
  | cons failure failures ih => exact ih (backOff failure.1 failure.2 self)

theorem afterFailures_delay (failures : List Failure) (self : Instance) :
    (afterFailures failures self).acceptBackoffMs =
      (nextDelay self.minBackoffMs self.maxBackoffMs)^[failures.length] self.acceptBackoffMs := by
  induction failures generalizing self with
  | nil => rfl
  | cons failure failures ih => exact ih (backOff failure.1 failure.2 self)

theorem steady_iff_monotone {self : Instance} (accepted : Configured self) :
    Steady self ↔ ∀ count, delayAfter self.minBackoffMs self.maxBackoffMs count ≤
      delayAfter self.minBackoffMs self.maxBackoffMs (count + 1) := by
  have decides : ∀ (failures : List Failure) random stamp,
      Grows (afterFailures failures self) (backOff random stamp (afterFailures failures self)) ↔
        delayAfter self.minBackoffMs self.maxBackoffMs failures.length ≤
          delayAfter self.minBackoffMs self.maxBackoffMs (failures.length + 1) := by
    intro failures random stamp
    obtain ⟨low, high⟩ := afterFailures_bounds failures self
    have delay := afterFailures_delay failures self
    rw [accepted.start] at delay
    rw [grows_iff (low ▸ high ▸ accepted.less) (low ▸ accepted.positive), low, high, delay,
      delayAfter_succ]
    rfl
  constructor
  · intro steady count
    have grows := steady (List.replicate count (0, 0)) 0 0
    rw [decides, List.length_replicate] at grows
    exact grows
  · intro monotone failures random stamp
    exact (decides failures random stamp).mpr (monotone failures.length)

variable {low high : Nat}

theorem delayAfter_one (positive : 0 < low) (less : low < high) : delayAfter low high 1 = low := by
  have zero : delayAfter low high 0 = 0 := rfl
  rw [delayAfter_succ, nextDelay_small less (by omega)]
  omega

theorem delayAfter_le (less : low < high) (count : Nat) : delayAfter low high count ≤ high := by
  cases count with
  | zero => exact Nat.zero_le high
  | succ count =>
      rw [delayAfter_succ]
      exact (nextDelay_bounds less _).2

/-! ### When the delay does not fall -/

theorem monotone_of_small (less : low < high) (small : high < 2 ^ 15) (count : Nat) :
    delayAfter low high count ≤ delayAfter low high (count + 1) := by
  have most := delayAfter_le less count
  rw [delayAfter_succ, nextDelay_small less (by omega)]
  omega

theorem monotone_of_large (positive : 0 < low) (less : low < high) (fits : high ≤ 65535)
    (large : 2 ^ 15 ≤ low) (count : Nat) :
    delayAfter low high count ≤ delayAfter low high (count + 1) := by
  have constant : ∀ count, delayAfter low high (count + 1) = low := by
    intro count
    induction count with
    | zero => exact delayAfter_one positive less
    | succ count ih =>
        rw [delayAfter_succ, ih, nextDelay_large less large (by omega) fits]
        omega
  cases count with
  | zero => exact Nat.zero_le _
  | succ count => rw [constant, constant]

theorem power_cases {delay other : Nat} (shape : delay + 1 = 2 ^ other) (most : delay ≤ 65535) :
    delay < 2 ^ 15 ∨ delay = 65535 := by
  by_cases large : other ≤ 15
  · have bound : 2 ^ other ≤ 2 ^ 15 := Nat.pow_le_pow_right (by decide) large
    omega
  · have bound : 2 ^ 16 ≤ 2 ^ other := Nat.pow_le_pow_right (by decide) (by omega)
    omega

/-- One less than a power of two stays so, up to the largest number. -/
theorem delayAfter_power {exponent : Nat} (positive : 0 < low) (less : low < 65535)
    (power : low + 1 = 2 ^ exponent) (count : Nat) :
    delayAfter low 65535 count ≤ delayAfter low 65535 (count + 1) ∧
      ∃ other, delayAfter low 65535 (count + 1) + 1 = 2 ^ other := by
  induction count with
  | zero => exact ⟨Nat.zero_le _, exponent, by rw [delayAfter_one positive less, power]⟩
  | succ count ih =>
      obtain ⟨-, other, shape⟩ := ih
      have most := delayAfter_le less (count + 1)
      have least : low ≤ delayAfter low 65535 (count + 1) := by
        rw [delayAfter_succ]
        exact (nextDelay_bounds less _).1
      rw [delayAfter_succ low 65535 (count + 1)]
      rcases power_cases shape most with small | full
      · have doubled : 2 ^ (other + 1) = 2 ^ other * 2 := Nat.pow_succ ..
        rw [nextDelay_small less small]
        refine ⟨by omega, other + 1, by omega⟩
      · rw [nextDelay_large less (by omega) most (Nat.le_refl _), full]
        exact ⟨by omega, 16, by omega⟩

/-! ### When it does -/

/-- Some delay has its highest bit; where the bound is the largest number, every delay before it
has been doubled. -/
theorem exists_large (positive : 0 < low) (less : low < high) (large : 2 ^ 15 ≤ high)
    (fits : high ≤ 65535) : ∃ count, 2 ^ 15 ≤ delayAfter low high (count + 1) ∧
      (high = 65535 → ∃ exponent, delayAfter low high (count + 1) + 1 = (low + 1) * 2 ^ exponent) := by
  have climbs : ∀ rest count, 2 ^ 15 - delayAfter low high (count + 1) ≤ rest →
      (high = 65535 → ∃ exponent,
        delayAfter low high (count + 1) + 1 = (low + 1) * 2 ^ exponent) →
      ∃ later, 2 ^ 15 ≤ delayAfter low high (later + 1) ∧ (high = 65535 → ∃ exponent,
        delayAfter low high (later + 1) + 1 = (low + 1) * 2 ^ exponent) := by
    intro rest
    induction rest with
    | zero =>
        intro count near shape
        exact ⟨count, by omega, shape⟩
    | succ rest ih =>
        intro count near shape
        by_cases there : 2 ^ 15 ≤ delayAfter low high (count + 1)
        · exact ⟨count, there, shape⟩
        · have least : low ≤ delayAfter low high (count + 1) := by
            rw [delayAfter_succ]
            exact (nextDelay_bounds less _).1
          have next := delayAfter_succ low high (count + 1)
          rw [nextDelay_small less (by omega)] at next
          refine ih (count + 1) (by omega) fun full => ?_
          obtain ⟨exponent, doubled⟩ := shape full
          refine ⟨exponent + 1, ?_⟩
          rw [Nat.pow_succ, ← Nat.mul_assoc, ← doubled]
          omega
  refine climbs _ 0 (Nat.le_refl _) fun _ => ⟨0, ?_⟩
  rw [delayAfter_one positive less, Nat.pow_zero, Nat.mul_one]

theorem falls_of_large {count : Nat} (less : low < high) (fits : high ≤ 65535) (small : low < 2 ^ 15)
    (large : 2 ^ 15 ≤ delayAfter low high count) (notFull : delayAfter low high count ≠ 65535) :
    delayAfter low high (count + 1) < delayAfter low high count := by
  have most := delayAfter_le less count
  rw [delayAfter_succ, nextDelay_large less large most fits]
  omega

theorem steady_iff (self : Instance) (accepted : Configured self) :
    Steady self ↔ Harmless self.minBackoffMs self.maxBackoffMs := by
  rw [steady_iff_monotone accepted]
  obtain ⟨positive, less, fits, -⟩ := accepted
  constructor
  · intro monotone
    by_cases bounded : self.maxBackoffMs < 2 ^ 15
    · exact .inl bounded
    by_cases small : self.minBackoffMs < 2 ^ 15
    · obtain ⟨count, large, shape⟩ := exists_large positive less (by omega) fits
      by_cases full : delayAfter self.minBackoffMs self.maxBackoffMs (count + 1) = 65535
      · have most := delayAfter_le less (count + 1)
        have top : self.maxBackoffMs = 65535 := by omega
        obtain ⟨exponent, product⟩ := shape top
        rw [full] at product
        have divides : self.minBackoffMs + 1 ∣ 2 ^ 16 := ⟨2 ^ exponent, product⟩
        obtain ⟨power, -, shape⟩ := (Nat.dvd_prime_pow Nat.prime_two).mp divides
        exact .inr (.inr ⟨top, power, shape⟩)
      · have falls := falls_of_large less fits small large full
        have grows := monotone (count + 1)
        omega
    · exact .inr (.inl (by omega))
  · rintro (small | large | ⟨top, exponent, power⟩) count
    · exact monotone_of_small less small count
    · exact monotone_of_large positive less fits large count
    · rw [top] at less ⊢
      exact (delayAfter_power positive less power count).1

theorem steady_below_half :
    Configured (configured (100, 30000)) ∧ Steady (configured (100, 30000)) := by
  have accepted : Configured (configured (100, 30000)) :=
    ⟨by decide, by decide, by decide, rfl⟩
  exact ⟨accepted, (steady_iff _ accepted).mpr (.inl (by decide))⟩

/-- The bounds that redsocks has by default. -/
theorem default_falls :
    Configured (configured (100, 60000)) ∧ ¬Steady (configured (100, 60000)) := by
  refine ⟨⟨by decide, by decide, by decide, rfl⟩, fun steady => ?_⟩
  have monotone := (steady (List.replicate 10 (0, 0)) 0 0).monotone
  exact absurd monotone (by decide)

end ProxySet.Backoff
