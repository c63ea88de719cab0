/-!
# Natural numbers

Sizes and words are measured in powers of two, and counts are summed up. Both are read in the same
way in every module, whatever else the module imports.
-/

namespace TraceRing

/-- A power of natural numbers is that of the core library. -/
@[default_instance 100000]
instance natPow : Pow Nat Nat :=
  instPowNat

/-- A sum of natural numbers starts from the zero of the core library. -/
instance natZero : Zero Nat :=
  Zero.ofOfNat0

end TraceRing
