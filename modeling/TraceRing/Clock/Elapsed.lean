import TraceRing.Clock.Ticked

/-!
# Counters driven by elapsed time

The counter of a host clock: one tick is one nanosecond since the counter was made. It remembers
only when it was last full, so nothing has to happen for it to count, and it stays at 0 until it
is reloaded: a late handler stalls time and never turns it back.
-/

namespace TraceRing

/-- A counter driven by elapsed time. -/
structure ElapsedCounter (bits : Nat) where
  /-- The time as last seen, in nanoseconds. -/
  elapsed : Nat
  /-- The time at which the counter was full, as long as it runs. -/
  fullAt : Nat
  /-- The value kept while the counter stands still. -/
  resting : Fin (2 ^ bits)
  running : Bool
  unmasked : Bool
  deriving DecidableEq

namespace ElapsedCounter

variable {bits : Nat}

/-- A full counter that stands still, its interrupt masked. -/
def new (bits : Nat) : ElapsedCounter bits :=
  ⟨0, 0, TickedCounter.full bits, false, false⟩

def value (c : ElapsedCounter bits) : Fin (2 ^ bits) :=
  if c.running then
    ⟨Clock.top bits - (c.elapsed - c.fullAt),
      Nat.lt_of_le_of_lt (Nat.sub_le ..) (Clock.top_lt bits)⟩
  else c.resting

/-- Lets the counter run on from the value it holds. -/
def resume (c : ElapsedCounter bits) : ElapsedCounter bits :=
  if c.running then c
  else { c with running := true, fullAt := c.elapsed - (Clock.top bits - c.resting.val) }

instance : Countdown (ElapsedCounter bits) bits where
  read := value
  stop c := { c with resting := c.value, running := false }
  refill c := { c with resting := TickedCounter.full bits, fullAt := c.elapsed }
  start := resume
  setIrq enabled c := { c with unmasked := enabled }

def wait (c : ElapsedCounter bits) (nanos : Nat) : ElapsedCounter bits :=
  { c with elapsed := c.elapsed + nanos }

end ElapsedCounter

abbrev ElapsedClock (bits : Nat) := Clock (ElapsedCounter bits)

namespace ElapsedClock

variable {bits : Nat}

/-- A host clock before its first reset. -/
def new (bits : Nat) : ElapsedClock bits :=
  Clock.new (ElapsedCounter.new bits)

def wait (k : ElapsedClock bits) (nanos : Nat) : ElapsedClock bits :=
  { k with counter := k.counter.wait nanos }

/-! ## The watcher -/

/-- The time between two looks of the watcher: an eighth of a period, but not too often and not
too rarely. -/
def pollNanos (bits : Nat) : Nat :=
  min (max (Clock.period bits / 8) 10000) 1000000

/-- A look of the watcher: it runs the handler of a running, unmasked counter that ran down. -/
def watch (k : ElapsedClock bits) : ElapsedClock bits :=
  if k.counter.running && k.counter.unmasked && k.counter.value.val == 0 then k.rollOver
  else k

/-- What was seen of a clock under a watcher. -/
structure Sighting (bits : Nat) where
  clock : ElapsedClock bits
  /-- The last timestamp. -/
  last : UInt64
  /-- Whether no timestamp was less than the one before it. -/
  monotonic : Bool

/-- One round: the watcher looks, a timestamp is taken, and time passes until the next round. -/
def Sighting.round (s : Sighting bits) : Sighting bits :=
  let k := watch s.clock
  match k.now with
  | .ok t => ⟨wait k (pollNanos bits), t, s.monotonic && decide (s.last ≤ t)⟩
  | .error _ => ⟨wait k (pollNanos bits), s.last, s.monotonic⟩

/-- Rounds until a number of wraparounds was reached, or the rounds are over. -/
def observe (wraps : Nat) : Nat → Sighting bits → Sighting bits
  | 0, s => s
  | rounds + 1, s => if wraps ≤ s.clock.wraps.toNat then s else observe wraps rounds s.round

end ElapsedClock

end TraceRing
