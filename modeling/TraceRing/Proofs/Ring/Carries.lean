import TraceRing.Grid
import TraceRing.Ring.Basic

/-!
# What a ring carries

A ring stands for a window of an unbounded sequence of packets: of all packets ever `sent`, those
before `taken` are consumed, and the others lie in the slots of their indices. Indices are counted
from `base` on and never wrap here; the ring holds their remainders by `2 ^ 32`. As the number of
slots divides `2 ^ 32`, the slot of an index is found from either (`slot_ofNat`).

The laws below are the only places where wrapping words, slots and the sequence meet: storing,
publishing and giving back are each a step of the window.
-/

namespace TraceRing.Ring

variable {g : Geometry}

/-! ## Slots of unbounded indices -/

/-- The slot of a wrapped index is the slot of the index. -/
@[simp] theorem slot_ofNat (g : Geometry) (n : Nat) : slot g (UInt32.ofNat n) = n % g.slots := by
  rw [slot, UInt32.toNat_ofNat']
  exact Nat.mod_mod_of_dvd n g.slots_dvd

/-- Indices less than a round apart have different slots. -/
theorem mod_slots_ne {i j : Nat} (hij : i < j) (hround : j < i + g.slots) :
    i % g.slots ≠ j % g.slots := by
  intro heq
  -- equal slots make the distance a multiple of the round
  have hdvd : g.slots ∣ j - i := Nat.dvd_of_mod_eq_zero (Nat.sub_mod_eq_zero_of_mod_eq heq.symm)
  have hle : g.slots ≤ j - i := Nat.le_of_dvd (by omega) hdvd
  omega

/-- Storing at an index leaves the packets of all indices less than a round before it alone. -/
theorem getSlot_setSlot_of_lt (r : Ring g) (packet : Packet g) {i j : Nat} (hij : i < j)
    (hround : j < i + g.slots) :
    (r.setSlot (UInt32.ofNat j) packet).getSlot (UInt32.ofNat i) = r.getSlot (UInt32.ofNat i) := by
  apply getSlot_setSlot_of_ne
  simpa using (mod_slots_ne hij hround).symm

/-- What a slot holds is up to the packets alone. -/
theorem getSlot_congr {r r' : Ring g} (h : r'.packets = r.packets) (index : UInt32) :
    r'.getSlot index = r.getSlot index := by
  simp only [getSlot, h]

/-- The number of packets between two wrapped indices less than `2 ^ 32` apart. -/
theorem toNat_gap_ofNat {i j : Nat} (hij : i ≤ j) (hlt : j < i + 2 ^ 32) :
    (gap (UInt32.ofNat j) (UInt32.ofNat i)).toNat = j - i := by
  simp only [gap, UInt32.toNat_sub, UInt32.toNat_ofNat']
  omega

/-! ## Giving back -/

/-- The ring after some packets at its front were given back. -/
def released (r : Ring g) (n : Nat) : Ring g :=
  r.publishConsumer (r.consumerIndex + UInt32.ofNat n)

@[simp] theorem released_zero (r : Ring g) : r.released 0 = r := by
  simp [released, publishConsumer]

@[simp] theorem released_released (r : Ring g) (m n : Nat) :
    (r.released m).released n = r.released (m + n) := by
  simp only [released, publishConsumer, UInt32.ofNat_add, UInt32.add_assoc]

theorem backlog_released {r : Ring g} {n : Nat} (h : n ≤ r.backlog) :
    (r.released n).backlog = r.backlog - n := by
  have hp := r.producerIndex.toNat_lt
  have hc := r.consumerIndex.toNat_lt
  simp only [backlog, gap, released, publishConsumer, UInt32.toNat_sub, UInt32.toNat_add,
    UInt32.toNat_ofNat'] at h ⊢
  omega

/-- Of the packets that wait, those behind the ones given back wait on. -/
theorem pending_released {r : Ring g} {n : Nat} (h : n ≤ r.backlog) :
    (r.released n).pending = r.pending.drop n := by
  apply List.ext_getElem
  · rw [length_pending, backlog_released h, List.length_drop, length_pending]
  · intro k hk hk'
    have hindex : (r.released n).consumerIndex + UInt32.ofNat k =
        r.consumerIndex + UInt32.ofNat (n + k) := by
      simp only [released, publishConsumer, UInt32.ofNat_add, UInt32.add_assoc]
    rw [List.getElem_drop]
    simp only [pending, List.getElem_map, List.getElem_range, hindex]
    rfl

theorem backlog_pos_iff (r : Ring g) :
    0 < r.backlog ↔ hasData r.producerIndex r.consumerIndex = true := by
  have hzero : gap r.producerIndex r.consumerIndex = 0 ↔ r.producerIndex = r.consumerIndex := by
    rw [gap, UInt32.sub_eq_iff_eq_add, UInt32.zero_add]
  rw [backlog, Nat.pos_iff_ne_zero, ne_eq, ← UInt32.toNat_zero, UInt32.toNat_inj, hzero, hasData,
    bne_iff_ne]

/-- What a consumer finds at its index is the oldest packet that waits. -/
theorem pending_eq_cons {r : Ring g} (h : hasData r.producerIndex r.consumerIndex = true) :
    r.pending = r.getSlot r.consumerIndex :: (r.released 1).pending := by
  have hpos : 0 < r.pending.length := by
    rw [length_pending]
    exact r.backlog_pos_iff.mpr h
  have hfirst : r.pending[0] = r.getSlot r.consumerIndex := by
    simp [pending]
  have hone : 1 ≤ r.backlog := r.backlog_pos_iff.mpr h
  rw [pending_released hone, ← hfirst, ← List.drop_eq_getElem_cons hpos,
    List.drop_zero]

/-! ## Windows -/

/-- The ring holds the packets of a sequence from `taken` on, at the indices from `base` on. -/
structure Carries (r : Ring g) (base : Nat) (sent : List (Packet g)) (taken : Nat) : Prop where
  taken_le : taken ≤ sent.length
  length_le : sent.length ≤ taken + g.slots
  producerIndex : r.producerIndex = UInt32.ofNat (base + sent.length)
  consumerIndex : r.consumerIndex = UInt32.ofNat (base + taken)
  getSlot : ∀ k (h : k < sent.length), taken ≤ k → r.getSlot (UInt32.ofNat (base + k)) = sent[k]

namespace Carries

variable {r : Ring g} {base taken : Nat} {sent : List (Packet g)}

/-- A ring with equal indices carries nothing. -/
theorem of_eq (index : UInt32) (hp : r.producerIndex = index) (hc : r.consumerIndex = index) :
    r.Carries index.toNat [] 0 where
  taken_le := Nat.le_refl _
  length_le := Nat.zero_le _
  producerIndex := by simpa using hp
  consumerIndex := by simpa using hc
  getSlot k h := absurd h (Nat.not_lt_zero k)

/-- An empty ring carries nothing. -/
theorem empty (g : Geometry) : (Ring.empty g).Carries 0 [] 0 :=
  of_eq 0 rfl rfl

/-- Only the indices and the slots count. -/
theorem congr {r' : Ring g} (h : r.Carries base sent taken)
    (hp : r'.producerIndex = r.producerIndex) (hc : r'.consumerIndex = r.consumerIndex)
    (hs : r'.packets = r.packets) : r'.Carries base sent taken where
  taken_le := h.taken_le
  length_le := h.length_le
  producerIndex := hp.trans h.producerIndex
  consumerIndex := hc.trans h.consumerIndex
  getSlot k hk hle := by
    rw [getSlot_congr hs]
    exact h.getSlot k hk hle

theorem writeText (h : r.Carries base sent taken) (message : Bytes) :
    (r.writeText message).Carries base sent taken :=
  h.congr (producerIndex_writeText r message) (consumerIndex_writeText r message)
    (packets_writeText r message)

/-! ## Reading the indices -/

theorem toNat_gap (h : r.Carries base sent taken) :
    (gap r.producerIndex r.consumerIndex).toNat = sent.length - taken := by
  have hle := h.taken_le
  have hlen := h.length_le
  have hslots := g.slots_le
  -- a window is shorter than `2 ^ 32`, so the wrapped difference is the true one
  rw [h.producerIndex, h.consumerIndex, toNat_gap_ofNat (by omega) (by omega)]
  omega

theorem backlog_eq (h : r.Carries base sent taken) : r.backlog = sent.length - taken :=
  h.toNat_gap

/-- The test for a free slot, with the loaded index not older than a round. -/
theorem isFull_iff (h : r.Carries base sent taken) :
    isFull g r.producerIndex r.consumerIndex = true ↔ sent.length = taken + g.slots := by
  have hle := h.taken_le
  rw [isFull, beq_iff_eq, ← UInt32.toNat_inj, h.toNat_gap, toNat_capacity]
  omega

theorem gap_lt_capacity_iff (h : r.Carries base sent taken) :
    gap r.producerIndex r.consumerIndex < capacity g ↔ sent.length < taken + g.slots := by
  have hle := h.taken_le
  rw [UInt32.lt_iff_toNat_lt, h.toNat_gap, toNat_capacity]
  omega

theorem hasData_iff (h : r.Carries base sent taken) :
    hasData r.producerIndex r.consumerIndex = true ↔ taken < sent.length := by
  rw [← backlog_pos_iff, h.backlog_eq]
  omega

/-- The consumer finds the oldest packet not taken at its index. -/
theorem getSlot_consumerIndex (h : r.Carries base sent taken) (hlt : taken < sent.length) :
    r.getSlot r.consumerIndex = sent[taken] := by
  rw [h.consumerIndex]
  exact h.getSlot taken hlt (Nat.le_refl _)

/-- The packets that wait in the ring are those of the window. -/
theorem pending_eq (h : r.Carries base sent taken) : r.pending = sent.drop taken := by
  have hbacklog := h.backlog_eq
  apply List.ext_getElem
  · rw [length_pending, hbacklog, List.length_drop]
  · intro k hk hk'
    rw [length_pending, hbacklog] at hk
    have hindex : r.consumerIndex + UInt32.ofNat k = UInt32.ofNat (base + (taken + k)) := by
      rw [h.consumerIndex, ← UInt32.ofNat_add, Nat.add_assoc]
    have hlt : taken + k < sent.length := by omega
    rw [List.getElem_drop, ← h.getSlot (taken + k) hlt (Nat.le_add_right ..), ← hindex]
    simp [pending]

/-! ## Steps of the window -/

/-- While a slot is free, storing at the producer index disturbs no packet of the window. -/
theorem setSlot (h : r.Carries base sent taken) (hroom : sent.length < taken + g.slots)
    (packet : Packet g) :
    (r.setSlot (UInt32.ofNat (base + sent.length)) packet).Carries base sent taken where
  taken_le := h.taken_le
  length_le := h.length_le
  producerIndex := h.producerIndex
  consumerIndex := h.consumerIndex
  getSlot k hk hle := by
    -- the window is at most a round long, so its slots differ from the one stored into
    rw [getSlot_setSlot_of_lt r packet (by omega) (by omega)]
    exact h.getSlot k hk hle

/-- Publishing the packet stored at the producer index puts it at the end of the window. -/
theorem publishProducer (h : r.Carries base sent taken) (hroom : sent.length < taken + g.slots)
    {packet : Packet g} (hstored : r.getSlot (UInt32.ofNat (base + sent.length)) = packet) :
    (r.publishProducer (UInt32.ofNat (base + sent.length) + 1)).Carries base (sent ++ [packet])
      taken where
  taken_le := by
    have hle := h.taken_le
    simp only [List.length_append, List.length_singleton]
    omega
  length_le := by
    simp only [List.length_append, List.length_singleton]
    omega
  producerIndex := by
    simp only [Ring.publishProducer, List.length_append, List.length_singleton, ← Nat.add_assoc]
    exact (UInt32.ofNat_add (base + sent.length) 1).symm
  consumerIndex := h.consumerIndex
  getSlot k hk hle := by
    -- publishing moves an index only; all slots but that of the new packet are known
    change r.getSlot _ = _
    rcases Nat.lt_or_ge k sent.length with hold | hnew
    · rw [List.getElem_append_left hold]
      exact h.getSlot k hold hle
    · have hlast : k = sent.length := by
        simp only [List.length_append, List.length_singleton] at hk
        omega
      subst hlast
      simpa using hstored

/-- Giving back the oldest packets takes them off the front of the window. -/
theorem released (h : r.Carries base sent taken) {n : Nat} (hn : taken + n ≤ sent.length) :
    (r.released n).Carries base sent (taken + n) where
  taken_le := hn
  length_le := by
    have hlen := h.length_le
    omega
  producerIndex := h.producerIndex
  consumerIndex := by
    simp only [Ring.released, Ring.publishConsumer, h.consumerIndex, ← Nat.add_assoc,
      UInt32.ofNat_add]
  getSlot k hk hle := h.getSlot k hk (by omega)

theorem publishConsumer (h : r.Carries base sent taken) (hlt : taken < sent.length) :
    (r.publishConsumer (r.consumerIndex + 1)).Carries base sent (taken + 1) :=
  h.released hlt

end Carries

/-- A ring whose gap is in order carries what waits in it, after as many packets as its consumer
index counts. -/
theorem exists_carries {r : Ring g} (h : r.backlog ≤ g.slots) :
    ∃ before : List (Packet g), r.Carries 0 (before ++ r.pending) before.length := by
  refine ⟨List.replicate r.consumerIndex.toNat (Packet.zero g), ?_⟩
  have hbefore := List.length_replicate (n := r.consumerIndex.toNat) (a := Packet.zero g)
  generalize List.replicate r.consumerIndex.toNat (Packet.zero g) = before at hbefore ⊢
  refine ⟨?_, ?_, ?_, ?_, fun k hk hle => ?_⟩
  · rw [List.length_append]
    exact Nat.le_add_right ..
  · rw [List.length_append, length_pending]
    exact Nat.add_le_add_left h _
  · rw [List.length_append, length_pending, backlog, hbefore, Nat.zero_add, UInt32.ofNat_add,
      UInt32.ofNat_toNat, UInt32.ofNat_toNat, gap, UInt32.add_comm, UInt32.sub_add_cancel]
  · rw [hbefore, Nat.zero_add, UInt32.ofNat_toNat]
  · have hindex : UInt32.ofNat (0 + k) =
        r.consumerIndex + UInt32.ofNat (k - before.length) := by
      rw [← UInt32.ofNat_toNat (x := r.consumerIndex), ← hbefore, ← UInt32.ofNat_add,
        Nat.add_sub_cancel' hle, Nat.zero_add]
    rw [List.getElem_append_right hle, hindex]
    simp [pending]

end TraceRing.Ring

/-! ## The smallest instance -/

namespace TraceRing

theorem Geometry.slotBits_pair_le : 1 ≤ 30 := by
  decide

/-- Two slots of 32 bytes. -/
def Geometry.pair : Geometry :=
  ⟨1, 5, slotBits_pair_le⟩

/-- A grid of one core. -/
def Grid.single : Grid :=
  ⟨1, 1, Nat.one_pos, Nat.one_pos⟩

end TraceRing
