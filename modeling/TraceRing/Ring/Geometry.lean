import TraceRing.Numbers

/-!
# The geometry of a ring

A ring has a number of slots and a packet size, and both are powers of two: a logical index then
falls on the same slot before and after it wraps around, because the number of slots divides
`2 ^ 32` (`slots_dvd`). At most `2 ^ 30` slots are admitted, so that an index is never ambiguous.
-/

namespace TraceRing

/-- The geometry of a ring, as exponents of two. -/
structure Geometry where
  slotBits : Nat
  packetBits : Nat
  slotBits_le : slotBits ≤ 30 := by decide
  deriving DecidableEq

namespace Geometry

def slots (g : Geometry) : Nat :=
  2 ^ g.slotBits

def packetSize (g : Geometry) : Nat :=
  2 ^ g.packetBits

theorem slots_pos (g : Geometry) : 0 < g.slots :=
  Nat.two_pow_pos _

theorem packetSize_pos (g : Geometry) : 0 < g.packetSize :=
  Nat.two_pow_pos _

/-- A wrapping index meets the slots in an unbroken round. -/
theorem slots_dvd (g : Geometry) : g.slots ∣ 2 ^ 32 :=
  Nat.pow_dvd_pow 2 (Nat.le_trans g.slotBits_le (by decide))

theorem slots_le (g : Geometry) : g.slots ≤ 2 ^ 30 :=
  Nat.pow_le_pow_right (by decide) g.slotBits_le

theorem slots_lt_size (g : Geometry) : g.slots < UInt32.size :=
  Nat.lt_of_le_of_lt g.slots_le (by decide)

/-- The geometry with a number of slots and a packet size, if it is admitted. -/
def ofSizes? (slots packetSize : Nat) : Option Geometry :=
  if h : slots = 2 ^ slots.log2 ∧ packetSize = 2 ^ packetSize.log2 ∧ slots.log2 ≤ 30 then
    some ⟨slots.log2, packetSize.log2, h.2.2⟩
  else none

end Geometry

/-- The contents of a packet. -/
abbrev Packet (g : Geometry) := Vector UInt8 g.packetSize

namespace Packet

def zero (g : Geometry) : Packet g :=
  Vector.replicate _ 0

/-- The packet that starts with some bytes, with zeros after them. -/
def ofBytes (g : Geometry) (bytes : List UInt8) : Packet g :=
  let source := bytes.toArray
  Vector.ofFn fun i => source.getD i 0

end Packet

end TraceRing
