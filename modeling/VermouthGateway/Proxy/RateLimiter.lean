import VermouthGateway.Go.Effect
import Mathlib.Algebra.Ring.Int.Defs
import Mathlib.Data.Rat.Defs

/-!
# Rate limiters

`QpsRateLimiter` wraps the token bucket of `golang.org/x/time/rate`.  Of that
package the model keeps the configuration of a bucket: its `Limit`, a number of
tokens per second or infinite, and its burst.  `rate.Every` is taken as the
exact rational number of tokens per second.
-/

namespace VermouthGateway
namespace Proxy

open Go

/-- `rate.Limit`. -/
inductive Limit
  | inf
  | perSecond (tokens : ℚ)
deriving DecidableEq

/-- `rate.Every` of a duration in nanoseconds. -/
def every (interval : Int) : Limit :=
  if interval ≤ 0 then .inf else .perSecond (1000000000 / interval)

/-- `time.Second`, in nanoseconds. -/
def second : Int := 1000000000

/-- `INF`. -/
def inf : Int := 1000000007

/-- The recorded configuration of a limiter. -/
structure LimiterInfo where
  url : String
  type : String
  init : Int
  speed : Int
deriving DecidableEq, Repr

structure QpsRateLimiter where
  limit : Limit
  burst : Int
  /-- -1 when no timeout is configured. -/
  timeout : Int
deriving DecidableEq

/-- The error values of the package. -/
inductive RateError
  | limiterTypeNotSupported
  | noReaminToken
deriving DecidableEq, Repr

def RateError.message : RateError → String
  | .limiterTypeNotSupported => "limiter type not supported"
  | .noReaminToken => "The token has been used up"

/-- `NewQpsRateLimiter`. -/
def newQpsRateLimiter : QpsRateLimiter := ⟨.perSecond inf, inf, -1⟩

/-- `rate.Build`. -/
def buildRateLimiter (type : String) : Except RateError QpsRateLimiter :=
  if type = "qps" then .ok newQpsRateLimiter else .error .limiterTypeNotSupported

/-- `QpsRateLimiter.SetRate`: a speed of zero divides by zero. -/
def QpsRateLimiter.setRate (r : QpsRateLimiter) (init speed : Int) :
    Except Halt QpsRateLimiter :=
  if speed = 0 then .error (.panic .divideByZero)
  -- above 10^9 tokens the interval is 0, which `Every` reads as no limit
  else .ok { r with limit := every (second.tdiv speed), burst := init }

/-- `QpsRateLimiter.GetVolumn`. -/
def QpsRateLimiter.getVolumn (r : QpsRateLimiter) : Int := r.burst

/-- `int64` of a number of tokens, which drops the fraction.  Out of range the
language leaves the result open. -/
def Limit.toInt64 : Limit → Option Int
  | .inf => none
  | .perSecond tokens =>
      let whole := tokens.num.tdiv tokens.den
      if -2 ^ 63 ≤ whole ∧ whole < 2 ^ 63 then some whole else none

/-- `QpsRateLimiter.GetSpeed`. -/
def QpsRateLimiter.getSpeed (r : QpsRateLimiter) : Option Int := r.limit.toInt64

/-- `QpsRateLimiter.Take`; whether the bucket has a token is up to the clock. -/
def QpsRateLimiter.take (allow : QpsRateLimiter → Bool) (r : QpsRateLimiter) :
    Except RateError Unit :=
  if allow r then .ok () else .error .noReaminToken

end Proxy
end VermouthGateway
