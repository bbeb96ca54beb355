import Courier.Duration.Basic
import Courier.Text.Decimal

/-! The text of a length of time: the largest of the units s, ms, µs and ns with
a non-zero whole part, and a fraction without trailing zeros. -/
namespace Courier.Duration

def text (d : Duration) : String :=
  if 0 < d.secs then Text.decimal d.toNanos 9 ++ "s"
  else if 1000000 ≤ d.nanos then Text.decimal d.nanos 6 ++ "ms"
  else if 1000 ≤ d.nanos then Text.decimal d.nanos 3 ++ "µs"
  else Text.decimal d.nanos 0 ++ "ns"

end Courier.Duration
