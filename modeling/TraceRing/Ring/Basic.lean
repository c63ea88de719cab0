import TraceRing.Bytes
import TraceRing.Ring.Geometry

/-!
# Rings of packets

One ring carries the packets of one core. Both indices run freely through the 32-bit words and
wrap around; the slot of an index is its remainder by the number of slots. The producer owns the
producer index and the slots, the consumer owns the consumer index, and neither reads back what
it owns. A ring with equal indices is empty, one whose indices are a whole round apart is full.

`Ring.pending` is the queue a ring stands for: the published packets that are not consumed yet,
oldest first.
-/

namespace TraceRing

def textAreaSize : Nat := 256

/-- The ring of one core. -/
structure Ring (g : Geometry) where
  consumerIndex : UInt32
  producerIndex : UInt32
  packets : Vector (Packet g) g.slots
  /-- The diagnostic text, ended by a NUL byte. -/
  textArea : Vector UInt8 textAreaSize
  deriving DecidableEq

namespace Ring

variable {g : Geometry}

def empty (g : Geometry) : Ring g where
  consumerIndex := 0
  producerIndex := 0
  packets := Vector.replicate _ (Packet.zero g)
  textArea := Vector.replicate _ 0

/-! ## Index arithmetic -/

/-- The number of slots, as an index. -/
def capacity (g : Geometry) : UInt32 :=
  UInt32.ofNat g.slots

/-- The slot of a logical index. -/
def slot (g : Geometry) (index : UInt32) : Nat :=
  index.toNat % g.slots

/-- The number of published packets that are not consumed yet. -/
def gap (producerIndex consumerIndex : UInt32) : UInt32 :=
  producerIndex - consumerIndex

/-- Whether no slot is free. -/
def isFull (g : Geometry) (producerIndex consumerIndex : UInt32) : Bool :=
  gap producerIndex consumerIndex == capacity g

/-- Whether a packet waits for the consumer. -/
def hasData (producerIndex consumerIndex : UInt32) : Bool :=
  producerIndex != consumerIndex

theorem slot_lt (g : Geometry) (index : UInt32) : slot g index < g.slots :=
  Nat.mod_lt _ g.slots_pos

@[simp] theorem toNat_capacity (g : Geometry) : (capacity g).toNat = g.slots :=
  UInt32.toNat_ofNat_of_lt' g.slots_lt_size

/-- The slot of the next index is the next slot, around the ring, also where the index wraps. -/
theorem slot_add_one (g : Geometry) (index : UInt32) :
    slot g (index + 1) = (slot g index + 1) % g.slots := by
  have round : (index.toNat + 1) % 2 ^ 32 % g.slots = (index.toNat + 1) % g.slots :=
    Nat.mod_mod_of_dvd _ g.slots_dvd
  simp only [slot, UInt32.toNat_add]
  rw [Nat.mod_add_mod, ← round]
  rfl

/-! ## Slots and indices -/

/-- Stores a packet in the slot of an index. -/
def setSlot (r : Ring g) (index : UInt32) (packet : Packet g) : Ring g :=
  { r with packets := r.packets.set (slot g index) packet (slot_lt g index) }

def getSlot (r : Ring g) (index : UInt32) : Packet g :=
  have inside := slot_lt g index
  r.packets[slot g index]

/-- Makes the packets before an index visible to the consumer. -/
def publishProducer (r : Ring g) (index : UInt32) : Ring g :=
  { r with producerIndex := index }

/-- Gives the slots of the packets before an index back to the producer. -/
def publishConsumer (r : Ring g) (index : UInt32) : Ring g :=
  { r with consumerIndex := index }

/-- Stores a packet at the shared producer index and publishes it, full or not. -/
def push (r : Ring g) (packet : Packet g) : Ring g :=
  (r.setSlot r.producerIndex packet).publishProducer (r.producerIndex + 1)

/-- The oldest unconsumed packet, which is given back; none if there is no packet. -/
def pop (r : Ring g) : Option (Packet g) × Ring g :=
  if hasData r.producerIndex r.consumerIndex then
    (some (r.getSlot r.consumerIndex), r.publishConsumer (r.consumerIndex + 1))
  else (none, r)

/-- The published packets that are not consumed yet, oldest first. -/
def pending (r : Ring g) : List (Packet g) :=
  (List.range (gap r.producerIndex r.consumerIndex).toNat).map fun k =>
    r.getSlot (r.consumerIndex + UInt32.ofNat k)

/-- The number of packets a consumer has before it. -/
def backlog (r : Ring g) : Nat :=
  (gap r.producerIndex r.consumerIndex).toNat

@[simp] theorem getSlot_setSlot_self (r : Ring g) (index : UInt32) (packet : Packet g) :
    (r.setSlot index packet).getSlot index = packet := by
  simp [getSlot, setSlot]

theorem getSlot_setSlot_of_ne (r : Ring g) {i j : UInt32} (packet : Packet g)
    (h : slot g i ≠ slot g j) : (r.setSlot i packet).getSlot j = r.getSlot j := by
  simp [getSlot, setSlot, h]

@[simp] theorem length_pending (r : Ring g) : r.pending.length = r.backlog := by
  simp [pending, backlog]

/-- Giving one packet back takes one from the backlog. -/
theorem backlog_publishConsumer (r : Ring g)
    (h : hasData r.producerIndex r.consumerIndex = true) :
    (r.publishConsumer (r.consumerIndex + 1)).backlog + 1 = r.backlog := by
  have ne : r.producerIndex.toNat ≠ r.consumerIndex.toNat := by
    simpa [hasData, ← UInt32.toNat_inj] using h
  have p_lt := r.producerIndex.toNat_lt
  have c_lt := r.consumerIndex.toNat_lt
  simp only [backlog, gap, publishConsumer, UInt32.toNat_sub, UInt32.toNat_add,
    UInt32.toNat_one]
  omega

/-! ## Diagnostic text -/

/-- The part of a message that fits the text area with its NUL byte. -/
def textKept (message : Bytes) : Bytes :=
  message.take (textAreaSize - 1)

/-- Overwrites the text area with a message, cut to fit, and ends it with a NUL byte. What lies
behind the NUL byte stays. -/
def writeText (r : Ring g) (message : Bytes) : Ring g :=
  let kept := textKept message
  { r with
    textArea := Vector.ofFn fun i =>
      if i.val = kept.length then 0 else (kept[i.val]?).getD (r.textArea[i]) }

@[simp] theorem producerIndex_writeText (r : Ring g) (message : Bytes) :
    (r.writeText message).producerIndex = r.producerIndex := by
  simp [writeText]

@[simp] theorem consumerIndex_writeText (r : Ring g) (message : Bytes) :
    (r.writeText message).consumerIndex = r.consumerIndex := by
  simp [writeText]

@[simp] theorem packets_writeText (r : Ring g) (message : Bytes) :
    (r.writeText message).packets = r.packets := by
  simp [writeText]

/-- The text in the text area, up to its first NUL byte. -/
def text (r : Ring g) : Bytes :=
  (r.textArea.toArray.takeWhile (· != 0)).toList

/-- Copies the text into a buffer: the number of bytes copied, and the buffer. -/
def readText (r : Ring g) (buffer : Bytes) : Nat × Bytes :=
  let copied := r.text.take buffer.length
  (copied.length, copied ++ buffer.drop copied.length)

/-! ## Operations as data -/

inductive Op (g : Geometry) where
  | write (index : UInt32) (packet : Packet g)
  | read (index : UInt32)
  | publishProducer (index : UInt32)
  | publishConsumer (index : UInt32)
  | push (packet : Packet g)
  | pop
  | writeText (message : Bytes)
  | readText (buffer : Bytes)

inductive Answer (g : Geometry) where
  | done
  | packet (p : Option (Packet g))
  | index (i : UInt32)
  | text (length : Nat) (buffer : Bytes)

def run (r : Ring g) : Op g → Answer g × Ring g
  | .write index packet => (.done, r.setSlot index packet)
  | .read index => (.packet (some (r.getSlot index)), r)
  | .publishProducer index => (.done, r.publishProducer index)
  | .publishConsumer index => (.done, r.publishConsumer index)
  | .push packet => (.index r.producerIndex, r.push packet)
  | .pop => (.packet r.pop.1, r.pop.2)
  | .writeText message => (.done, r.writeText message)
  | .readText buffer => (.text (r.readText buffer).1 (r.readText buffer).2, r)

end Ring

end TraceRing
