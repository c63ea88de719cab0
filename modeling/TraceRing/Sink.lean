import TraceRing.Failure

/-!
# Sinks

A sink takes the packets of one core as a stream of bytes. What it answers to each write is a
script: it takes some of the bytes it is offered, or it fails, and in either case the shutdown of
the consumer may be requested while it is at it. After its script a sink takes all it is offered.

`writeAll` offers a byte string until all of it is taken: an interrupted write is tried again, a
write that takes nothing is a failure of its own.
-/

namespace TraceRing

/-! ## Scripts -/

/-- What a sink answers to a write. -/
inductive Reply where
  | takeAll
  /-- It takes at most some number of bytes. -/
  | takeUpTo (limit : Nat)
  | fail (e : IoError)
  deriving DecidableEq

/-- One entry of a sink's script. -/
structure Turn where
  reply : Reply
  /-- Whether shutdown is requested during the write. -/
  tripsShutdown : Bool
  deriving DecidableEq

/-- The sink of one core. -/
structure Sink where
  script : List Turn
  /-- What flushing fails with, if it does. -/
  flushError : Option IoError
  /-- The byte strings taken so far, the last one first. -/
  chunks : List Bytes
  deriving DecidableEq

namespace Sink

def accepting : Sink :=
  ⟨[], none, []⟩

/-- The bytes taken so far. -/
def received (s : Sink) : Bytes :=
  s.chunks.reverse.flatten

/-- The sink after it took some bytes and used up part of its script. -/
def took (s : Sink) (bytes : Bytes) (script : List Turn) : Sink :=
  { s with chunks := bytes :: s.chunks, script := script }

/-- The sink after what it took was collected. -/
def emptied (s : Sink) : Sink :=
  { s with chunks := [] }

@[simp] theorem received_took (s : Sink) (bytes : Bytes) (script : List Turn) :
    (s.took bytes script).received = s.received ++ bytes := by
  simp [received, took]

end Sink

/-! ## Writing a whole byte string -/

/-- How offering a byte string ended. -/
structure Delivery where
  result : Except IoError Unit
  /-- What is left of the script. -/
  script : List Turn
  /-- The bytes that were taken. -/
  taken : Bytes
  /-- The bytes offered in each write. -/
  offers : List Bytes
  /-- Whether shutdown was requested. -/
  tripped : Bool

namespace Delivery

/-- The delivery with one more write in front. -/
def after (offer taken : Bytes) (tripped : Bool) (d : Delivery) : Delivery :=
  { d with
    taken := taken ++ d.taken
    offers := offer :: d.offers
    tripped := tripped || d.tripped }

/-- A delivery that fails at its only write. -/
def failed (e : IoError) (script : List Turn) (offer : Bytes) (tripped : Bool) : Delivery :=
  ⟨.error e, script, [], [offer], tripped⟩

end Delivery

/-- Offers a byte string until all of it is taken or a write fails for good. -/
def writeAll : List Turn → Bytes → Delivery
  | script, [] => ⟨.ok (), script, [], [], false⟩
  | [], offer => ⟨.ok (), [], offer, [offer], false⟩
  | turn :: script, offer =>
    match turn.reply with
    | .takeAll => ⟨.ok (), script, offer, [offer], turn.tripsShutdown⟩
    | .takeUpTo 0 => .failed .tookNothing script offer turn.tripsShutdown
    | .takeUpTo (n + 1) =>
      (writeAll script (offer.drop (n + 1))).after offer (offer.take (n + 1)) turn.tripsShutdown
    | .fail e =>
      if e.kind = .interrupted then (writeAll script offer).after offer [] turn.tripsShutdown
      else .failed e script offer turn.tripsShutdown

end TraceRing
