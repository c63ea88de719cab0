/-!
# Faults

A fault ends an operation on the spot: an arithmetic result that does not fit its word, an index
outside its table, or a broken contract of the caller. It is not an error of the outside world
(those are in `TraceRing.Failure`): the effects an operation had before the fault stay.
-/

namespace TraceRing

/-- What ended an operation on the spot. -/
inductive Fault where
  /-- A product that does not fit 64 bits. -/
  | productOverflow
  /-- A sum that does not fit 64 bits. -/
  | sumOverflow
  /-- An index outside a table of `length` entries. -/
  | indexOutOfBounds (length index : Nat)
  /-- A byte range that starts beyond a slice of `length` bytes. -/
  | rangeStartsBeyond (start length : Nat)
  /-- A byte range that starts inside a slice of `length` bytes and ends beyond it. -/
  | rangeEndsBeyond (stop length : Nat)
  /-- A packet was closed while its ring had no free slot. -/
  | endedOnFullRing
  /-- A consumer was given another number of `parts` than there are cores. -/
  | wrongCount (parts : String) (found cores : Nat)
  deriving DecidableEq, Repr

def Fault.message : Fault → String
  | productOverflow => "attempt to multiply with overflow"
  | sumOverflow => "attempt to add with overflow"
  | indexOutOfBounds length index =>
    "index out of bounds: the len is " ++ toString length ++ " but the index is " ++ toString index
  | rangeStartsBeyond start length =>
    "range start index " ++ toString start ++ " out of range for slice of length "
      ++ toString length
  | rangeEndsBeyond stop length =>
    "range end index " ++ toString stop ++ " out of range for slice of length " ++ toString length
  | endedOnFullRing => "close_packet on a full ring buffer"
  | wrongCount parts found cores =>
    "assertion `left == right` failed: one " ++ parts ++ " per core\n  left: " ++ toString found
      ++ "\n right: " ++ toString cores

end TraceRing
