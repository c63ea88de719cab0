import TraceRing.Grid
import TraceRing.Ring.Basic

/-!
# Encoders

A producer leaves the format of its packets to an encoder. It asks no more of it than to start and
finish a packet, whether one is open and whether it holds events (`PacketEncoder`).

The encoder here, `Encoder`, gives each packet a header of 28 bytes in little-endian words: the
number of the packet, the place of its core, the time it was opened, the time it was closed, and the
number of its events. `Header.decode` reads it back.
-/

namespace TraceRing

/-- What a producer asks of the encoder that fills its packets. A call that faults leaves what it
did to the encoder and to the packet. -/
class PacketEncoder (E : Type) (g : Geometry) where
  /-- Starts a packet of a core at a time. -/
  startPacket : E → UInt64 → Grid → Core → Packet g → Except Fault Unit × E × Packet g
  /-- Finishes the open packet at a time. -/
  endPacket : E → UInt64 → Packet g → Except Fault Unit × E × Packet g
  /-- Whether a packet is open. -/
  isOpen : E → Bool
  /-- Whether the open packet holds no event. -/
  isEmpty : E → Bool

/-! ## Storing in packets -/

namespace Packet

variable {g : Geometry}

/-- Stores bytes in a packet from `offset` on; they have to lie inside it. The place after the
last byte is a sum in a 64-bit word, found before the range is looked at; a range that starts
beyond the packet faults for its start, also if it is empty. -/
def patch (p : Packet g) (offset : Nat) (bytes : Bytes) : Except Fault (Packet g) :=
  if 2 ^ 64 ≤ offset + bytes.length then .error .sumOverflow
  else if g.packetSize < offset then .error (.rangeStartsBeyond offset g.packetSize)
  else if g.packetSize < offset + bytes.length then
    .error (.rangeEndsBeyond (offset + bytes.length) g.packetSize)
  else
    let source := bytes.toArray
    .ok (Vector.ofFn fun i =>
      if offset ≤ i.val ∧ i.val < offset + bytes.length then source.getD (i.val - offset) 0
      else p[i])

end Packet

/-! ## Headers -/

structure Header where
  seq : Nat
  core : Nat
  opened : Nat
  closed : Nat
  events : Nat
  deriving DecidableEq, Repr

def Header.decode (bytes : Bytes) : Header where
  seq := Bytes.value (bytes.take 4)
  core := Bytes.value ((bytes.drop 4).take 4)
  opened := Bytes.value ((bytes.drop 8).take 8)
  closed := Bytes.value ((bytes.drop 16).take 8)
  events := Bytes.value ((bytes.drop 24).take 4)

/-! ## The encoder of headers -/

/-- What the encoder remembers. -/
structure Encoder where
  seq : UInt32
  events : UInt32
  isOpen : Bool
  deriving DecidableEq, Repr

namespace Encoder

variable {g : Geometry}

/-- An encoder before its first packet. -/
def new : Encoder :=
  ⟨0, 0, false⟩

def isEmpty (e : Encoder) : Bool :=
  e.events == 0

def addEvents (e : Encoder) (n : UInt32) : Encoder :=
  { e with events := e.events + n }

/-- Starts a packet with its number, its core and its time; the rest is 0. A fault leaves what
was stored before it, and the packet unopened. -/
def startPacket (e : Encoder) (time : UInt64) (core : Except Fault Nat) :
    Except Fault Unit × Encoder × Packet g :=
  let blank := Packet.zero g
  match blank.patch 0 (Bytes.word 4 e.seq.toNat) with
  | .error fault => (.error fault, e, blank)
  | .ok numbered =>
    match core with
    | .error fault => (.error fault, e, numbered)
    | .ok place =>
      match numbered.patch 4 (Bytes.word 4 place) with
      | .error fault => (.error fault, e, numbered)
      | .ok placed =>
        match placed.patch 8 (Bytes.word 8 time.toNat) with
        | .error fault => (.error fault, e, placed)
        | .ok timed => (.ok (), { e with events := 0, isOpen := true }, timed)

/-- Finishes a packet with its time and the number of its events. -/
def endPacket (e : Encoder) (time : UInt64) (packet : Packet g) :
    Except Fault Unit × Encoder × Packet g :=
  match packet.patch 16 (Bytes.word 8 time.toNat) with
  | .error fault => (.error fault, e, packet)
  | .ok timed =>
    match timed.patch 24 (Bytes.word 4 e.events.toNat) with
    | .error fault => (.error fault, e, timed)
    | .ok counted => (.ok (), { e with seq := e.seq + 1, isOpen := false }, counted)

/-- The encoder starts a packet afresh, whatever was in it. -/
instance : PacketEncoder Encoder g where
  startPacket e time grid core _ := e.startPacket time (grid.index core)
  endPacket := endPacket
  isOpen := isOpen
  isEmpty := isEmpty

end Encoder

end TraceRing
