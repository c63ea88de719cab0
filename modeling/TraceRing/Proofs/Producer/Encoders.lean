import TraceRing.Encoder

/-!
# What a producer relies on

The laws of a producer do not depend on the format of its packets. They need of an encoder only that
a packet it finished is closed, that its faults are not those of the ring, and that it can finish
all packets of a size if it can finish one (`LawfulEncoder`).

The encoder of headers is such an encoder. It can finish the packets that have room for a whole
header (`Encoder.finishes_iff`).
-/

namespace TraceRing

variable {g : Geometry}

/-- An encoder can finish all packets. -/
def PacketEncoder.Finishes (E : Type) (g : Geometry) [PacketEncoder E g] : Prop :=
  ∀ (e : E) (time : UInt64) (packet : Packet g), (endPacket e time packet).1 = .ok ()

/-- What a producer relies on in an encoder. -/
class LawfulEncoder (E : Type) (g : Geometry) [PacketEncoder E g] : Prop where
  /-- No fault of starting a packet is about the ring. -/
  startPacket_ne : ∀ (e : E) (time : UInt64) (grid : Grid) (core : Core) (packet : Packet g),
    (PacketEncoder.startPacket e time grid core packet).1 ≠ .error .endedOnFullRing
  /-- No fault of finishing a packet is about the ring. -/
  endPacket_ne : ∀ (e : E) (time : UInt64) (packet : Packet g),
    (PacketEncoder.endPacket e time packet).1 ≠ .error .endedOnFullRing
  /-- A packet that is finished is closed. -/
  isOpen_endPacket : ∀ (e : E) (time : UInt64) (packet : Packet g),
    (PacketEncoder.endPacket e time packet).1 = .ok () →
      PacketEncoder.isOpen g (PacketEncoder.endPacket e time packet).2.1 = false
  /-- If a packet can be finished, then all can. -/
  finishes : ∀ (e : E) (time : UInt64) (packet : Packet g),
    (PacketEncoder.endPacket e time packet).1 = .ok () → PacketEncoder.Finishes E g

/-! ## Storing in packets -/

namespace Packet

/-- A fault of storing is about the range. -/
theorem patch_ne_endedOnFullRing (p : Packet g) (offset : Nat) (bytes : Bytes) :
    p.patch offset bytes ≠ .error .endedOnFullRing := by
  unfold patch
  split
  · simp
  · split
    · simp
    · split <;> simp

/-- Storing beyond the packet faults. -/
theorem patch_of_beyond (p : Packet g) (offset : Nat) (bytes : Bytes)
    (h : g.packetSize < offset + bytes.length) :
    ∃ fault, p.patch offset bytes = .error fault := by
  unfold patch
  split
  · exact ⟨_, rfl⟩
  · split
    · exact ⟨_, rfl⟩
    · exact ⟨_, rfl⟩

/-- Storing inside the packet does not fault. -/
theorem patch_of_inside (p : Packet g) (offset : Nat) (bytes : Bytes)
    (hinside : offset + bytes.length ≤ g.packetSize) (hword : offset + bytes.length < 2 ^ 64) :
    ∃ patched, p.patch offset bytes = .ok patched := by
  rw [patch, if_neg (by omega), if_neg (by omega), if_neg (by omega)]
  exact ⟨_, rfl⟩

end Packet

/-! ## The encoder of headers -/

theorem Grid.index_ne_endedOnFullRing (grid : Grid) (core : Core) :
    grid.index core ≠ .error .endedOnFullRing := by
  simp only [index]
  split
  · simp
  · split <;> simp

namespace Encoder

/-- No fault of starting a packet is about the ring, unless that of its place is. -/
theorem startPacket_ne_endedOnFullRing (e : Encoder) (time : UInt64) {core : Except Fault Nat}
    (hcore : core ≠ .error .endedOnFullRing) :
    (e.startPacket (g := g) time core).1 ≠ .error .endedOnFullRing := by
  simp only [startPacket]
  split
  · next hpatch =>
    rintro ⟨⟩
    exact Packet.patch_ne_endedOnFullRing _ _ _ hpatch
  · split
    · rintro ⟨⟩
      exact hcore rfl
    · split
      · next hpatch =>
        rintro ⟨⟩
        exact Packet.patch_ne_endedOnFullRing _ _ _ hpatch
      · split
        · next hpatch =>
          rintro ⟨⟩
          exact Packet.patch_ne_endedOnFullRing _ _ _ hpatch
        · simp

/-- Finishing a packet closes it, which takes room for the whole header, or faults and leaves the
encoder as it was. -/
theorem endPacket_cases (e : Encoder) (time : UInt64) (packet : Packet g) :
    let ended := e.endPacket time packet
    (ended.1 = .ok () ∧ ended.2.1 = { e with seq := e.seq + 1, isOpen := false } ∧
      28 ≤ g.packetSize) ∨
    ((∃ fault, ended.1 = .error fault ∧ fault ≠ .endedOnFullRing) ∧ ended.2.1 = e) := by
  simp only [endPacket]
  split
  · next fault hpatch =>
    refine .inr ⟨⟨fault, rfl, ?_⟩, rfl⟩
    rintro rfl
    exact Packet.patch_ne_endedOnFullRing _ _ _ hpatch
  · next timed _ =>
    split
    · next fault hpatch =>
      refine .inr ⟨⟨fault, rfl, ?_⟩, rfl⟩
      rintro rfl
      exact Packet.patch_ne_endedOnFullRing _ _ _ hpatch
    · next hpatch =>
      -- the last word of the header was stored, so the packet is not shorter than it
      refine .inl ⟨rfl, rfl, ?_⟩
      rcases Nat.lt_or_ge g.packetSize 28 with hsmall | hlarge
      · obtain ⟨fault, hfault⟩ :=
          timed.patch_of_beyond 24 (Bytes.word 4 e.events.toNat) (by simpa using hsmall)
        rw [hfault] at hpatch
        cases hpatch
      · exact hlarge

/-- Finishing a packet with room for the whole header does not fault. -/
theorem endPacket_of_fits (e : Encoder) (time : UInt64) (packet : Packet g)
    (h : 28 ≤ g.packetSize) : (e.endPacket time packet).1 = .ok () := by
  obtain ⟨timed, htimed⟩ := packet.patch_of_inside 16 (Bytes.word 8 time.toNat)
    (by simp only [Bytes.length_word]; omega) (by simp)
  obtain ⟨counted, hcounted⟩ := timed.patch_of_inside 24 (Bytes.word 4 e.events.toNat)
    (by simp only [Bytes.length_word]; omega) (by simp)
  simp only [endPacket, htimed, hcounted]

/-- Packets can be finished if the header fits them. -/
theorem finishes_iff : PacketEncoder.Finishes Encoder g ↔ 28 ≤ g.packetSize := by
  constructor
  · intro h
    rcases endPacket_cases new 0 (Packet.zero g) with ⟨-, -, hfits⟩ | ⟨⟨fault, hfault, -⟩, -⟩
    · exact hfits
    · cases hfault.symm.trans (h new 0 (Packet.zero g))
  · exact fun hfits e time packet => e.endPacket_of_fits time packet hfits

instance : LawfulEncoder Encoder g where
  startPacket_ne e time grid core _ :=
    e.startPacket_ne_endedOnFullRing time (grid.index_ne_endedOnFullRing core)
  endPacket_ne e time packet hfault := by
    rcases e.endPacket_cases time packet with ⟨hok, -⟩ | ⟨⟨fault, herror, hne⟩, -⟩
    · cases hok.symm.trans hfault
    · cases herror.symm.trans hfault
      exact hne rfl
  isOpen_endPacket e time packet hok := by
    rcases e.endPacket_cases time packet with ⟨-, hclosed, -⟩ | ⟨⟨fault, herror, -⟩, -⟩
    · exact congrArg isOpen hclosed
    · cases herror.symm.trans hok
  finishes e time packet hok := by
    rcases e.endPacket_cases time packet with ⟨-, -, hfits⟩ | ⟨⟨fault, herror, -⟩, -⟩
    · exact finishes_iff.mpr hfits
    · cases herror.symm.trans hok

end Encoder

end TraceRing
