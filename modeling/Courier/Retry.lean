import Courier.Duration.Basic

/-! Growing pauses between failed attempts: the n-th pause since the last success
is n steps long, but never longer than the longest one. -/
namespace Courier

structure Retry where
  step : Duration
  longest : Duration
  failures : UInt32 := 0
  deriving DecidableEq

namespace Retry

/-- Forgets all failures. -/
def succeed (r : Retry) : Retry := { r with failures := 0 }

/-- Counts one more failure; the count stays at its largest value. -/
def fail (r : Retry) : Retry :=
  { r with failures := if r.failures = 4294967295 then r.failures else r.failures + 1 }

/-- The pause that belongs to the failures counted so far. -/
def pause (r : Retry) : Duration := min (r.step.saturatingTimes r.failures.toNat) r.longest

end Retry

end Courier
