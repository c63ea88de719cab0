import TraceRing.Clock.Basic

/-!
# Counters ticked by hand

The counter of a simulated clock. It is a one-shot timer: at 0 it stays until it is reloaded, and
it asks for its handler in the tick in which it gets there.
-/

namespace TraceRing

/-- A counter ticked by hand. -/
structure TickedCounter (bits : Nat) where
  value : Fin (2 ^ bits)
  running : Bool
  unmasked : Bool
  deriving DecidableEq

namespace TickedCounter

variable {bits : Nat}

/-- The largest value of a counter. -/
def full (bits : Nat) : Fin (2 ^ bits) :=
  ⟨Clock.top bits, Clock.top_lt bits⟩

/-- A full counter that stands still, its interrupt masked. -/
def new (bits : Nat) : TickedCounter bits :=
  ⟨full bits, false, false⟩

instance : Countdown (TickedCounter bits) bits where
  read c := c.value
  stop c := { c with running := false }
  refill c := { c with value := full bits }
  start c := { c with running := true }
  setIrq enabled c := { c with unmasked := enabled }

/-- Lets `n` ticks pass. Answers whether the counter ran down in them with its interrupt
unmasked, so that the handler is due. -/
def tick (c : TickedCounter bits) (n : Nat) : Bool × TickedCounter bits :=
  if c.running then
    let left := c.value.val - n
    (decide (0 < c.value.val) && decide (left = 0) && c.unmasked,
      { c with value := ⟨left, Nat.lt_of_le_of_lt (Nat.sub_le ..) c.value.isLt⟩ })
  else (false, c)

/-- Forces the counter to a value, or to its largest if that is less. -/
def set (c : TickedCounter bits) (n : Nat) : TickedCounter bits :=
  { c with
    value := ⟨min n (Clock.top bits),
      Nat.lt_of_le_of_lt (Nat.min_le_right ..) (Clock.top_lt bits)⟩ }

end TickedCounter

/-! ## Simulated clocks -/

abbrev TickedClock (bits : Nat) := Clock (TickedCounter bits)

namespace TickedClock

variable {bits : Nat}

/-- A simulated clock before its first reset. -/
def new (bits : Nat) : TickedClock bits :=
  Clock.new (TickedCounter.new bits)

/-- Lets ticks pass; the handler is up to the caller. -/
def tick (k : TickedClock bits) (n : Nat) : Bool × TickedClock bits :=
  ((k.counter.tick n).1, { k with counter := (k.counter.tick n).2 })

def set (k : TickedClock bits) (n : Nat) : TickedClock bits :=
  { k with counter := k.counter.set n }

/-- A clock whose handler ran at an underflow, and then at some more of them in a row. -/
def rollOverMore (k : TickedClock bits) (more : Nat) : TickedClock bits :=
  let once := k.rollOver
  { once with seq := once.seq + UInt32.ofNat (2 * more) }

/-- Each further run of the handler counts one more wraparound. -/
theorem rollOverMore_succ (k : TickedClock bits) (more : Nat) :
    rollOverMore k (more + 1) = (rollOverMore k more).rollOver := by
  have two : UInt32.ofNat (2 * (more + 1)) = UInt32.ofNat (2 * more) + 2 := by
    rw [Nat.mul_add, UInt32.ofNat_add]
    rfl
  simp only [rollOverMore, Clock.rollOver, Clock.rollOverActions, List.foldl, Clock.perform, two,
    UInt32.add_assoc]
  rfl

/-- Lets ticks pass and runs the handler whenever it is due: at the first underflow, and from
there on each time the counter ran down from its largest value. -/
def advance (k : TickedClock bits) (n : Nat) : TickedClock bits :=
  let value := k.counter.value.val
  let ticked := tick k (min n (max value 1))
  if ticked.1 then
    let left := n - value
    let top := Clock.top bits
    (tick (rollOverMore ticked.2 (left / top)) (left % top)).2
  else ticked.2

inductive Op where
  | reset
  | stop
  | rollOver
  | tick (n : Nat)
  | set (n : Nat)
  | startCounter
  | stopCounter
  | refillCounter
  | setIrq (enabled : Bool)
  | advance (n : Nat)
  deriving DecidableEq, Repr

/-- Runs an operation; a tick answers whether the handler is due. -/
def run (k : TickedClock bits) : Op → Option Bool × TickedClock bits
  | .reset => (none, k.reset)
  | .stop => (none, k.stop)
  | .rollOver => (none, k.rollOver)
  | .tick n => (some (tick k n).1, (tick k n).2)
  | .set n => (none, set k n)
  | .startCounter => (none, k.perform .start)
  | .stopCounter => (none, k.perform .stop)
  | .refillCounter => (none, k.perform .refill)
  | .setIrq enabled => (none, k.perform (.setIrq enabled))
  | .advance n => (none, advance k n)

end TickedClock

end TraceRing
