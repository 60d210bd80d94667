import Mathlib.Tactic.Ring

/-!
# The time between two packets

`timeval_subtract` carries between the seconds and the microseconds of the earlier time stamp, so
that the difference of the microseconds is not negative and below a million, and then subtracts both
parts. The carry is exact (`nanoseconds_timevalSubtract`), but it misses two cases: a difference of
a million is kept, and one that is a negative multiple of a million is carried to a million.
`Carries` excludes both.

Seconds and microseconds are any integers, as in a capture file, and do not overflow.
-/

namespace ShadowExtras.Replay

/-- `struct timeval` -/
structure Timeval where
  tvSec : ℤ
  tvUsec : ℤ
  deriving DecidableEq, Repr

/-- `struct timespec` -/
structure Timespec where
  tvSec : ℤ
  tvNsec : ℤ
  deriving DecidableEq, Repr

/-- A time in nanoseconds. -/
def Timeval.nanoseconds (t : Timeval) : ℤ := (t.tvSec * 1000000 + t.tvUsec) * 1000

/-- A time in nanoseconds. -/
def Timespec.nanoseconds (t : Timespec) : ℤ := t.tvSec * 1000000000 + t.tvNsec

/-- Both carries of `timeval_subtract`, which update `y`. -/
def carry (y x : Timeval) : Timeval :=
  let y :=
    if x.tvUsec < y.tvUsec then
      let nsec := Int.tdiv (y.tvUsec - x.tvUsec) 1000000 + 1
      { tvSec := y.tvSec + nsec, tvUsec := y.tvUsec - 1000000 * nsec : Timeval }
    else y
  if x.tvUsec - y.tvUsec > 1000000 then
    let nsec := Int.tdiv (x.tvUsec - y.tvUsec) 1000000
    { tvSec := y.tvSec - nsec, tvUsec := y.tvUsec + 1000000 * nsec }
  else y

/-- `timeval_subtract`: the time from `y` to `x`, what is left of `y`, and the return value. -/
def timevalSubtract (y x : Timeval) : Timespec × Timeval × ℤ :=
  let y := carry y x
  ({ tvSec := x.tvSec - y.tvSec, tvNsec := (x.tvUsec - y.tvUsec) * 1000 }, y,
    if x.tvSec < y.tvSec then 1 else 0)

/-- The difference is exact and normalised, and the return value says whether it is negative. -/
structure SubtractsExactly (y x : Timeval) : Prop where
  difference : (timevalSubtract y x).1.nanoseconds = x.nanoseconds - y.nanoseconds
  nonneg : 0 ≤ (timevalSubtract y x).1.tvNsec
  lt : (timevalSubtract y x).1.tvNsec < 1000000000
  negative : (timevalSubtract y x).2.2 = 1 ↔ x.nanoseconds < y.nanoseconds

/-- The microseconds differ neither by a million nor by a negative multiple of it. -/
def Carries (y x : Timeval) : Prop :=
  x.tvUsec - y.tvUsec ≠ 1000000 ∧ ¬(x.tvUsec < y.tvUsec ∧ 1000000 ∣ y.tvUsec - x.tvUsec)

instance (y x : Timeval) : Decidable (Carries y x) := by
  unfold Carries
  infer_instance

/-! ## The carry -/

/-- Carrying changes neither time. -/
theorem nanoseconds_carry (y x : Timeval) : (carry y x).nanoseconds = y.nanoseconds := by
  unfold carry Timeval.nanoseconds
  dsimp only
  split <;> split <;> dsimp only <;> ring

/-- The difference that is left of the microseconds. -/
theorem usec_carry (y x : Timeval) :
    x.tvUsec - (carry y x).tvUsec =
      if x.tvUsec - y.tvUsec = 1000000 ∨ x.tvUsec < y.tvUsec ∧ 1000000 ∣ y.tvUsec - x.tvUsec
      then 1000000
      else (x.tvUsec - y.tvUsec) % 1000000 := by
  unfold carry
  dsimp only
  by_cases hless : x.tvUsec < y.tvUsec
  · have hpositive : 0 ≤ y.tvUsec - x.tvUsec := by omega
    rw [if_pos hless, Int.tdiv_eq_ediv_of_nonneg hpositive]
    have hcarried :
        ¬x.tvUsec - (y.tvUsec - 1000000 * ((y.tvUsec - x.tvUsec) / 1000000 + 1)) > 1000000 := by
      omega
    dsimp only
    rw [if_neg hcarried]
    dsimp only
    split_ifs <;> omega
  · rw [if_neg hless]
    by_cases hgreater : x.tvUsec - y.tvUsec > 1000000
    · have hpositive : 0 ≤ x.tvUsec - y.tvUsec := by omega
      rw [if_pos hgreater, Int.tdiv_eq_ediv_of_nonneg hpositive]
      dsimp only
      split_ifs <;> omega
    · rw [if_neg hgreater]
      split_ifs <;> omega

/-- The carry is exact. -/
theorem nanoseconds_timevalSubtract (y x : Timeval) :
    (timevalSubtract y x).1.nanoseconds = x.nanoseconds - y.nanoseconds := by
  rw [← nanoseconds_carry y x]
  unfold timevalSubtract Timespec.nanoseconds Timeval.nanoseconds
  dsimp only
  ring

/-- `timeval_subtract` is exact exactly if the microseconds differ neither by a million nor by a
negative multiple of it. -/
theorem subtractsExactly_iff_carries (y x : Timeval) : SubtractsExactly y x ↔ Carries y x := by
  have hexact := nanoseconds_timevalSubtract y x
  have husec := usec_carry y x
  have hnsec : (timevalSubtract y x).1.tvNsec = (x.tvUsec - (carry y x).tvUsec) * 1000 := rfl
  constructor
  · rintro ⟨-, -, hlt, -⟩
    rw [hnsec, husec] at hlt
    unfold Carries
    split_ifs at hlt with hmissed
    · omega
    · exact not_or.mp hmissed
  · intro hcarries
    have hmissed : ¬(x.tvUsec - y.tvUsec = 1000000 ∨
        x.tvUsec < y.tvUsec ∧ 1000000 ∣ y.tvUsec - x.tvUsec) := not_or.mpr hcarries
    rw [if_neg hmissed] at husec
    have hreturns : (timevalSubtract y x).2.2 = 1 ↔ (timevalSubtract y x).1.tvSec < 0 := by
      unfold timevalSubtract
      dsimp only
      split <;> omega
    refine ⟨hexact, by omega, by omega, ?_⟩
    rw [hreturns]
    unfold Timespec.nanoseconds at hexact
    omega

/-- A difference of a million microseconds is not carried. -/
theorem not_subtractsExactly_million : ¬SubtractsExactly ⟨0, 0⟩ ⟨0, 1000000⟩ := by
  intro h
  exact absurd h.lt (by decide)

end ShadowExtras.Replay
