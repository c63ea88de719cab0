import TraceRing.Text.Decimal

/-!
# Durations

A span of time is written in the largest of the units `s`, `ms`, `µs` and `ns` that leaves at
least one whole unit, exactly and with the fewest digits: `0ns`, `1µs`, `1.5ms`, `1.000001s`.
-/

namespace TraceRing.Text

/-- The text of a span of `nanos` nanoseconds. -/
def duration (nanos : Nat) : String :=
  if 1000000000 ≤ nanos then
    fractional (nanos / 1000000000) 9 (nanos % 1000000000) ++ "s"
  else if 1000000 ≤ nanos then fractional (nanos / 1000000) 6 (nanos % 1000000) ++ "ms"
  else if 1000 ≤ nanos then fractional (nanos / 1000) 3 (nanos % 1000) ++ "µs"
  else toString nanos ++ "ns"

end TraceRing.Text
