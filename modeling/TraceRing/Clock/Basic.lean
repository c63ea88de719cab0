import TraceRing.Clock.Stamp

/-!
# Clocks

A clock is a counter and a sequence word. Reading it gives the same timestamp whoever asks: while
the handler is at work it is the last timestamp of the period being closed, so that a reader who
preempted the handler does not wait for it.
-/

namespace TraceRing

/-- A down-counter of `bits` bits. It is reloaded to its largest value. -/
class Countdown (C : Type) (bits : outParam Nat) where
  read : C → Fin (2 ^ bits)
  stop : C → C
  refill : C → C
  start : C → C
  setIrq : Bool → C → C

/-- What a producer asks of a clock. -/
class TimeSource (K : Type) where
  now : K → Except Fault UInt64
  reset : K → K
  stop : K → K

/-- A counter and its sequence word. -/
structure Clock (C : Type) where
  counter : C
  /-- Twice the number of wraparounds, and one more while the handler is at work. -/
  seq : UInt32
  deriving DecidableEq

namespace Clock

variable {C : Type} {bits : Nat} [Countdown C bits]

/-- A clock that counted no wraparound yet. -/
def new (counter : C) : Clock C :=
  ⟨counter, 0⟩

def wraps (k : Clock C) : UInt32 :=
  wrapsOf k.seq

def perform (k : Clock C) : Action → Clock C
  | .stop => { k with counter := Countdown.stop k.counter }
  | .refill => { k with counter := Countdown.refill k.counter }
  | .start => { k with counter := Countdown.start k.counter }
  | .setIrq enabled => { k with counter := Countdown.setIrq enabled k.counter }
  | .store seq => { k with seq := seq }

/-- Restarts the clock from 0. -/
def reset (k : Clock C) : Clock C :=
  resetActions.foldl perform k

/-- Stops the clock and masks its interrupt. -/
def stop (k : Clock C) : Clock C :=
  stopActions.foldl perform k

/-- Counts a wraparound, reloads the counter and lets it run. -/
def rollOver (k : Clock C) : Clock C :=
  (rollOverActions k.seq).foldl perform k

def now (k : Clock C) : Except Fault UInt64 :=
  if inHandler k.seq then stamp bits k.seq (top bits)
  else stamp bits k.seq (top bits - (Countdown.read k.counter).val)

instance : TimeSource (Clock C) where
  now := now
  reset := reset
  stop := stop

end Clock

end TraceRing
