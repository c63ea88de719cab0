import TraceRing.Files.Contents
import TraceRing.Ring.Basic

/-!
# Rings in memory

A region of memory, which is a mapped file, holds the rings of all cores one after the other. The
image of a ring is its consumer index and its producer index as little-endian words, its packets,
its text area, and padding up to a whole number of words. The padding is part of no ring: storing a
ring keeps it.
-/

namespace TraceRing.Ring

open Files (Contents)

variable {g : Geometry}

/-! ## Sizes -/

/-- The bytes of an image without its padding. -/
def bodySize (g : Geometry) : Nat :=
  8 + g.slots * g.packetSize + textAreaSize

/-- The bytes of an image. -/
def imageSize (g : Geometry) : Nat :=
  (bodySize g + 3) / 4 * 4

/-- The bytes of a region of `cores` rings. -/
def regionSize (g : Geometry) (cores : Nat) : Nat :=
  imageSize g * cores

theorem bodySize_le_imageSize (g : Geometry) : bodySize g ≤ imageSize g := by
  unfold imageSize
  omega

/-! ## One ring -/

/-- The bytes of a ring, without padding. -/
def encode (r : Ring g) : Bytes :=
  Bytes.word 4 r.consumerIndex.toNat ++ Bytes.word 4 r.producerIndex.toNat
    ++ (r.packets.toList.flatMap Vector.toList) ++ r.textArea.toList

/-- The ring in an image; bytes beyond the end of the image count as 0. -/
def decode (g : Geometry) (image : Bytes) : Ring g where
  consumerIndex := UInt32.ofNat (Bytes.value (image.take 4))
  producerIndex := UInt32.ofNat (Bytes.value ((image.drop 4).take 4))
  packets := Vector.ofFn fun i =>
    Packet.ofBytes g ((image.drop (8 + i.val * g.packetSize)).take g.packetSize)
  textArea :=
    let area := (image.drop (8 + g.slots * g.packetSize)).toArray
    Vector.ofFn fun i => area.getD i.val 0

/-! ## All rings of a region -/

def load (g : Geometry) (memory : Contents) (place : Nat) : Ring g :=
  decode g ((memory.drop (place * imageSize g)).take (imageSize g)).toBytes

/-- Stores the ring of the core at a place. The memory keeps its size. -/
def store (memory : Contents) (place : Nat) (r : Ring g) : Contents :=
  memory.overlay (place * imageSize g) (.ofBytes r.encode)

def loadAll (g : Geometry) (cores : Nat) (memory : Contents) : List (Ring g) :=
  (List.range cores).map (load g memory)

def storeAll (memory : Contents) (rings : List (Ring g)) : Contents :=
  rings.zipIdx.foldl (fun memory entry => store memory entry.2 entry.1) memory

end TraceRing.Ring
