/-!
# Decimal figures

Numbers in decimal, padded on the left to a width, and decimal fractions written with the fewest
digits.
-/

namespace TraceRing.Text

/-- A text padded with `fill` on the left to at least `width` characters. -/
def padLeft (width : Nat) (fill : Char) (text : String) : String :=
  String.ofList (List.replicate (width - text.length) fill) ++ text

/-- The `digits` decimal places of a fraction, without the zeros at their end. -/
def places (digits fraction : Nat) : List Char :=
  ((padLeft digits '0' (toString fraction)).toList.reverse.dropWhile (· == '0')).reverse

/-- A whole number and a fraction of `digits` places; a fraction of 0 is left out. -/
def fractional (whole digits fraction : Nat) : String :=
  if fraction = 0 then toString whole
  else toString whole ++ "." ++ String.ofList (places digits fraction)

end TraceRing.Text
