import TraceRing.Clock.Stamp

/-!
# A clock on the test bench

The counter of a bench follows a script: every reading gives the next value of it, whatever was
loaded or stopped, and an entry may say that underflows strike in the middle of the reading. After
its last entry the counter is full and nothing strikes any more. The bench notes every call to
the hardware. Armed, it also takes a timestamp within each call, as tracing code inside the
handler would; a timestamp taken there is not itself interrupted by more of them.
-/

namespace TraceRing.Clock

/-- One reading of the counter: its value, and the underflows that strike during it. -/
structure Reading where
  value : UInt64
  underflows : Nat
  deriving DecidableEq, Repr

/-- A note of the bench. -/
inductive Call where
  | read
  | stop
  | refill
  | start
  | setIrq (enabled : Bool)
  /-- A timestamp taken inside a call. -/
  | observed (timestamp : UInt64)
  deriving DecidableEq, Repr

/-- A clock of `bits` bits on the test bench. -/
structure Bench (bits : Nat) where
  seq : UInt32
  script : List Reading
  /-- The notes, the last one first. -/
  notes : List Call
  armed : Bool

namespace Bench

variable {bits : Nat}

/-- A clock before its first call. -/
def new (bits : Nat) (script : List Reading) (armed : Bool) : Bench bits :=
  ⟨0, script, [], armed⟩

def wraps (b : Bench bits) : UInt32 :=
  wrapsOf b.seq

def note (b : Bench bits) (call : Call) : Bench bits :=
  { b with notes := call :: b.notes }

/-- The notes, in order. -/
def calls (b : Bench bits) : List Call :=
  b.notes.reverse

@[simp] theorem calls_note (b : Bench bits) (call : Call) :
    (b.note call).calls = b.calls ++ [call] := by
  simp [calls, note]

/-- Does one action, without observing it. -/
def act (b : Bench bits) : Action → Bench bits
  | .stop => b.note .stop
  | .refill => b.note .refill
  | .start => b.note .start
  | .setIrq enabled => b.note (.setIrq enabled)
  | .store seq => { b with seq := seq }

/-! ## Timestamps -/

/-- Lets a number of underflows strike, one after the other. -/
def strike (serve : Bench bits → Except Fault Unit × Bench bits) :
    Nat → Bench bits → Except Fault Unit × Bench bits
  | 0, b => (.ok (), b)
  | n + 1, b =>
    match serve b with
    | (.error fault, b) => (.error fault, b)
    | (.ok (), b) => strike serve n b

/-- Takes a timestamp: it reads the counter until no underflow was handled meanwhile. -/
def takeStamp (serve : Bench bits → Except Fault Unit × Bench bits) :
    List Reading → Bench bits → Except Fault UInt64 × Bench bits
  | [], b =>
    if inHandler b.seq then (stamp bits b.seq (top bits), b)
    else (stamp bits b.seq 0, { b with script := [] }.note .read)
  | reading :: rest, b =>
    if inHandler b.seq then (stamp bits b.seq (top bits), b)
    else
      match strike serve reading.underflows ({ b with script := rest }.note .read) with
      | (.error fault, b') => (.error fault, b')
      | (.ok (), b') =>
        if b'.seq = b.seq then
          (stamp bits b.seq (top bits - min reading.value.toNat (top bits)), b')
        else takeStamp serve rest b'

def serveQuietly (b : Bench bits) : Except Fault Unit × Bench bits :=
  (.ok (), (rollOverActions b.seq).foldl act b)

/-- Takes a timestamp on a bench that is not armed. -/
def look (b : Bench bits) : Except Fault UInt64 × Bench bits :=
  takeStamp serveQuietly b.script b

/-! ## Observed operations -/

/-- Takes a timestamp inside a call, if the bench is armed. -/
def observe (b : Bench bits) : Except Fault Unit × Bench bits :=
  if b.armed then
    match look { b with armed := false } with
    | (.error fault, b) => (.error fault, b)
    | (.ok t, b) => (.ok (), { b.note (.observed t) with armed := true })
  else (.ok (), b)

/-- Does one action; calls to the hardware are observed. -/
def perform (b : Bench bits) : Action → Except Fault Unit × Bench bits
  | .store seq => (.ok (), b.act (.store seq))
  | action => (b.act action).observe

/-- Does actions until one faults. -/
def performAll : List Action → Bench bits → Except Fault Unit × Bench bits
  | [], b => (.ok (), b)
  | action :: rest, b =>
    match b.perform action with
    | (.error fault, b) => (.error fault, b)
    | (.ok (), b) => performAll rest b

def reset (b : Bench bits) : Except Fault Unit × Bench bits :=
  performAll resetActions b

def stop (b : Bench bits) : Except Fault Unit × Bench bits :=
  performAll stopActions b

def rollOver (b : Bench bits) : Except Fault Unit × Bench bits :=
  performAll (rollOverActions b.seq) b

def now (b : Bench bits) : Except Fault UInt64 × Bench bits :=
  takeStamp rollOver b.script b

inductive Op where
  | reset
  | stop
  | rollOver
  | now
  deriving DecidableEq, Repr

/-- Runs an operation; only a timestamp is answered. -/
def run (b : Bench bits) (op : Op) : Except Fault (Option UInt64) × Bench bits :=
  match op with
  | .reset => (b.reset.1.map fun _ => none, b.reset.2)
  | .stop => (b.stop.1.map fun _ => none, b.stop.2)
  | .rollOver => (b.rollOver.1.map fun _ => none, b.rollOver.2)
  | .now => (b.now.1.map some, b.now.2)

def clearCalls (b : Bench bits) : Bench bits :=
  { b with notes := [] }

end Bench

end TraceRing.Clock
