import TraceRing.Fault
import TraceRing.Numbers

/-!
# Timestamps and the steps of a clock

A hardware counter of `bits` bits counts down from `top bits`. The clock extends it to 64 bits: it
counts the times the counter ran down in a sequence word, by twos, and the word is odd while the
handler of such an underflow is at work. A timestamp is the number of wraparounds times the
period, with the counted ticks in the low bits.

The operations that touch the hardware are lists of actions here, so that what happens between
two of them can be talked about.
-/

namespace TraceRing.Clock

/-- The number of ticks of a counter from one reload to the next, the reload included. -/
def period (bits : Nat) : Nat :=
  2 ^ bits

/-- The value a counter is reloaded to. -/
def top (bits : Nat) : Nat :=
  2 ^ bits - 1

theorem top_lt (bits : Nat) : top bits < 2 ^ bits :=
  Nat.sub_lt (Nat.two_pow_pos bits) Nat.one_pos

/-- The wraparounds counted by a sequence word. -/
def wrapsOf (seq : UInt32) : UInt32 :=
  seq / 2

def inHandler (seq : UInt32) : Bool :=
  seq % 2 != 0

/-- The timestamp of a sequence word and a number of ticks since the last reload. The high part
has to fit 64 bits. -/
def stamp (bits : Nat) (seq : UInt32) (ticks : Nat) : Except Fault UInt64 :=
  let high := (wrapsOf seq).toNat * period bits
  if 2 ^ 64 ≤ high then .error .productOverflow else .ok (UInt64.ofNat (high ||| ticks))

/-- Setting the low bits of a high part is adding them. -/
theorem high_or_ticks (bits w : Nat) {ticks : Nat} (h : ticks < 2 ^ bits) :
    w * period bits ||| ticks = w * period bits + ticks := by
  rw [period, Nat.mul_comm, Nat.two_pow_add_eq_or_of_lt h]

/-! ## Actions -/

/-- One thing a clock does to its hardware or to its sequence word. -/
inductive Action where
  | stop
  | refill
  | start
  | setIrq (enabled : Bool)
  | store (seq : UInt32)
  deriving DecidableEq, Repr

def resetActions : List Action :=
  [.stop, .refill, .store 0, .setIrq true, .start]

def stopActions : List Action :=
  [.stop, .setIrq false]

/-- Handling an underflow: one more wraparound, between two odd and even sequence words. -/
def rollOverActions (seq : UInt32) : List Action :=
  [.store (seq + 1), .refill, .start, .store (seq + 2)]

end TraceRing.Clock
