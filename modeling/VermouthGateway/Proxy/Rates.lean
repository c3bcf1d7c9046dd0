import VermouthGateway.Foundation.NestedDivision
import VermouthGateway.Proxy.RateLimiter

/-!
# The enforced rate

`SetRate` divides a second by the speed and hands the quotient to `rate.Every`,
which divides a second by it: the rate goes through two divisions, and the first
of them drops its remainder.

* `Tracks`: the rate is the configured speed, up to a fraction of a token.
* `setRate_tracks_iff`: for which speeds it is.
* `speed_le_rate`, `rate_lt_twice`: for the others the rate is too high, but less
  than twice the speed.
-/

namespace VermouthGateway
namespace Proxy

open Go NestedDivision

/-! ## Speeds -/

theorem toInt64_of_nonneg {tokens : ℚ} (h : 0 ≤ tokens) (hmax : tokens < 2 ^ 63) :
    (Limit.perSecond tokens).toInt64 = some ⌊tokens⌋ := by
  have hwhole : tokens.num.tdiv tokens.den = ⌊tokens⌋ := by
    rw [Rat.floor_def', Int.tdiv_eq_ediv_of_nonneg (Rat.num_nonneg.mpr h)]
  have hlow : 0 ≤ ⌊tokens⌋ := Int.floor_nonneg.mpr h
  have hhigh : ⌊tokens⌋ < 2 ^ 63 := Int.floor_lt.mpr (by exact_mod_cast hmax)
  simp only [Limit.toInt64, hwhole]
  rw [if_pos ⟨by omega, hhigh⟩]

/-- The rate is the configured speed, up to a fraction of a token, and it is what
`GetSpeed` reports. -/
structure QpsRateLimiter.Tracks (r : QpsRateLimiter) (speed : Int) : Prop where
  rate : ∃ tokens : ℚ, r.limit = .perSecond tokens ∧ speed ≤ tokens ∧ tokens < speed + 1
  reported : r.getSpeed = some speed

section SetRate

variable {speed : Int}

/-- The rate that `SetRate` configures. -/
def rateOf (speed : Int) : ℚ := second / (second / speed : Int)

theorem setRate_eq (r : QpsRateLimiter) (init : Int) (hpos : 1 ≤ speed) (hmax : speed ≤ second) :
    r.setRate init speed = .ok { r with limit := .perSecond (rateOf speed), burst := init } := by
  have hinterval : 0 < second / speed := ediv_pos_of_le (by omega) hmax
  have htdiv : second.tdiv speed = second / speed := Int.tdiv_eq_ediv_of_nonneg (by decide)
  rw [QpsRateLimiter.setRate, if_neg (by omega), htdiv, every, if_neg (by omega), rateOf]
  rfl

theorem speed_le_rate (hpos : 1 ≤ speed) (hmax : speed ≤ second) : (speed : ℚ) ≤ rateOf speed :=
  le_div_ediv (by omega) hmax

theorem rate_lt_twice (hpos : 1 ≤ speed) (hmax : speed ≤ second) : rateOf speed < 2 * speed :=
  div_ediv_lt_twice (by omega) hmax

theorem rate_lt_succ_iff (hpos : 1 ≤ speed) (hmax : speed ≤ second) :
    rateOf speed < speed + 1 ↔ second % speed < second / speed :=
  div_ediv_lt_succ_iff (by omega) hmax

/-- Up to 31622 tokens per second the rate is always the configured one. -/
theorem rate_lt_succ_of_le (hpos : 1 ≤ speed) (hsmall : speed ≤ 31622) :
    rateOf speed < speed + 1 := by
  have hsq : speed * speed ≤ second :=
    (mul_le_mul hsmall hsmall (by omega) (by omega)).trans (by decide)
  have hmax : speed ≤ second := hsmall.trans (by decide)
  exact (rate_lt_succ_iff hpos hmax).mpr (emod_lt_ediv_of_sq_le (by omega) hsq)

/-- `SetRate` configures the speed it is given when the remainder of a second by it
is smaller than the quotient. -/
theorem setRate_tracks_iff (r : QpsRateLimiter) (init speed : Int) (hpos : 1 ≤ speed)
    (hmax : speed ≤ second) :
    (∃ r', r.setRate init speed = .ok r' ∧ r'.Tracks speed) ↔
      second % speed < second / speed := by
  rw [← rate_lt_succ_iff hpos hmax, setRate_eq r init hpos hmax]
  constructor
  · rintro ⟨r', hset, ⟨tokens, hlimit, -, hlt⟩, -⟩
    cases hset
    cases hlimit
    exact hlt
  · intro hlt
    have hle := speed_le_rate hpos hmax
    have hfloor : ⌊rateOf speed⌋ = speed := Int.floor_eq_iff.mpr ⟨hle, hlt⟩
    have hnonneg : (0 : ℚ) ≤ rateOf speed := by
      have hspeed : (0 : ℚ) ≤ speed := by exact_mod_cast (by omega : 0 ≤ speed)
      exact hspeed.trans hle
    have hbound : rateOf speed < 2 ^ 63 := by
      have hspeed : (speed : ℚ) ≤ 1000000000 := by exact_mod_cast hmax
      linarith
    refine ⟨_, rfl, ⟨_, rfl, hle, hlt⟩, ?_⟩
    rw [QpsRateLimiter.getSpeed, toInt64_of_nonneg hnonneg hbound, hfloor]

theorem setRate_tracks_iff_three :
    (∃ r', newQpsRateLimiter.setRate 10 3 = .ok r' ∧ r'.Tracks 3) ↔ second % 3 < second / 3 :=
  setRate_tracks_iff newQpsRateLimiter 10 3 (by decide) (by decide)

/-- Six hundred million tokens per second become a thousand million. -/
theorem rate_overshoots : ¬ ∀ (r : QpsRateLimiter) (init speed : Int),
    1 ≤ speed → speed ≤ second → ∃ r', r.setRate init speed = .ok r' ∧ r'.Tracks speed := by
  intro h
  obtain ⟨r', hset, ⟨tokens, hlimit, -, hlt⟩, -⟩ :=
    h newQpsRateLimiter 1 600000000 (by decide) (by decide)
  rw [setRate_eq _ _ (by decide) (by decide)] at hset
  cases hset
  cases hlimit
  exact absurd ((rate_lt_succ_iff (by decide) (by decide)).mp hlt) (by decide)

end SetRate

end Proxy
end VermouthGateway
