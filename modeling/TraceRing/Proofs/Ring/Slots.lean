import TraceRing.Proofs.Ring.Carries

/-!
# Live slots

The indices from a consumer index up to a producer index are live: their packets wait. There are
never more of them than slots, and then no two of them share a slot, wherever in the 32-bit words
they lie. The producer index shares a slot with one of them exactly if the ring is full
(`Ring.slots_apart`).

All of this rests on the sizes a ring may have (`Geometry.exists_slots_iff`): a wrapping index goes
through the slots of a power of two without a break, and no count of live indices is a word twice.
-/

namespace TraceRing

/-- The sizes of rings are the powers of two up to half of the greatest word. -/
theorem Geometry.exists_slots_iff {slots : Nat} :
    (∃ g : Geometry, g.slots = slots) ↔ slots.isPowerOfTwo ∧ slots ≤ (2 ^ 32 - 1) / 2 := by
  constructor
  · rintro ⟨g, rfl⟩
    exact ⟨⟨g.slotBits, rfl⟩, Nat.le_trans g.slots_le (by decide)⟩
  · rintro ⟨⟨bits, rfl⟩, hle⟩
    -- the bound is no power of two, the greatest one below it has 30 bits
    have hlt : 2 ^ bits < 2 ^ 31 := Nat.lt_of_le_of_lt hle (by decide)
    have hbits : bits < 31 := (Nat.pow_lt_pow_iff_right (by decide)).mp hlt
    exact ⟨⟨bits, 0, Nat.le_of_lt_succ hbits⟩, rfl⟩

namespace Ring

variable {g : Geometry} {start : UInt32} {i j waiting : Nat}

/-! ## Slots behind an index -/

/-- The slot of an index is what the mask of the slots leaves of it. -/
theorem slot_eq_masked (g : Geometry) (index : UInt32) :
    slot g index = (index &&& (capacity g - 1)).toNat := by
  have hone : (1 : UInt32) ≤ capacity g := by
    rw [UInt32.le_iff_toNat_le, toNat_capacity]
    exact g.slots_pos
  rw [UInt32.toNat_and, UInt32.toNat_sub_of_le _ _ hone, toNat_capacity]
  exact (Nat.and_two_pow_sub_one_eq_mod index.toNat g.slotBits).symm

/-- Slots are counted around the ring from any index on, also where the index wraps. -/
theorem slot_add_ofNat (g : Geometry) (start : UInt32) (i : Nat) :
    slot g (start + UInt32.ofNat i) = (start.toNat + i) % g.slots := by
  rw [← slot_ofNat, UInt32.ofNat_add, UInt32.ofNat_toNat]

theorem slot_add_ofNat_ne (hij : i < j) (hround : j < i + g.slots) :
    slot g (start + UInt32.ofNat i) ≠ slot g (start + UInt32.ofNat j) := by
  rw [slot_add_ofNat, slot_add_ofNat]
  exact mod_slots_ne (by omega) (by omega)

/-- A whole round leads back to the slot. -/
theorem slot_add_slots (g : Geometry) (start : UInt32) :
    slot g (start + UInt32.ofNat g.slots) = slot g start := by
  rw [slot_add_ofNat, Nat.add_mod_right, slot]

/-! ## Live slots -/

/-- The slots of the packets that wait, oldest first. -/
def liveSlots (g : Geometry) (consumerIndex : UInt32) (waiting : Nat) : List Nat :=
  (List.range waiting).map fun k => slot g (consumerIndex + UInt32.ofNat k)

theorem lt_of_mem_liveSlots {s : Nat} (h : s ∈ liveSlots g start waiting) : s < g.slots := by
  obtain ⟨k, -, rfl⟩ := List.mem_map.mp h
  exact slot_lt g _

theorem nodup_liveSlots (h : waiting ≤ g.slots) : (liveSlots g start waiting).Nodup := by
  rw [liveSlots, List.Nodup, List.pairwise_map]
  refine List.pairwise_lt_range.imp_of_mem fun {i j} _ hj hij => slot_add_ofNat_ne hij ?_
  have hlt : j < waiting := List.mem_range.mp hj
  omega

/-- The next packet goes to the slot of one that waits exactly if no slot is free. -/
theorem slot_mem_liveSlots_iff (h : waiting ≤ g.slots) :
    slot g (start + UInt32.ofNat waiting) ∈ liveSlots g start waiting ↔ waiting = g.slots := by
  rw [liveSlots, List.mem_map]
  constructor
  · rintro ⟨k, hk, hslot⟩
    have hlt : k < waiting := List.mem_range.mp hk
    apply Nat.le_antisymm h
    apply Nat.le_of_not_lt
    intro hfree
    exact slot_add_ofNat_ne hlt (by omega) hslot
  · rintro rfl
    refine ⟨0, List.mem_range.mpr g.slots_pos, ?_⟩
    rw [slot_add_slots, slot_add_ofNat, Nat.add_zero, slot]

/-! ## Counting the live indices -/

theorem gap_add (start count : UInt32) : gap (start + count) start = count := by
  rw [gap, UInt32.add_comm, UInt32.add_sub_cancel]

theorem toNat_ofNat_of_le (h : waiting ≤ g.slots) : (UInt32.ofNat waiting).toNat = waiting :=
  UInt32.toNat_ofNat_of_lt' (Nat.lt_of_le_of_lt h g.slots_lt_size)

theorem isFull_add_iff (h : waiting ≤ g.slots) :
    isFull g (start + UInt32.ofNat waiting) start = true ↔ waiting = g.slots := by
  rw [isFull, gap_add, beq_iff_eq, ← UInt32.toNat_inj, toNat_ofNat_of_le h, toNat_capacity]

theorem hasData_add_iff (h : waiting ≤ g.slots) :
    hasData (start + UInt32.ofNat waiting) start = true ↔ 0 < waiting := by
  rw [hasData, bne_iff_ne, ne_eq, UInt32.add_eq_left, ← UInt32.toNat_inj, toNat_ofNat_of_le h,
    UInt32.toNat_zero, Nat.pos_iff_ne_zero]

/-- Up to a whole round of live indices from any index on lie in slots of their own, and the
producer index behind them lies in none of these unless the round is whole. The two indices tell how
many live ones there are, whether no slot is free and whether a packet waits. The slot of an index
is found by a mask, and the next index has the next slot around the ring, also where it wraps. All
this is so for the powers of two up to half of the greatest word, and rings have no other sizes. -/
theorem slots_apart (g : Geometry) (consumerIndex : UInt32) {waiting : Nat}
    (h : waiting ≤ g.slots) :
    let producerIndex := consumerIndex + UInt32.ofNat waiting
    let live := liveSlots g consumerIndex waiting
    (∀ slots, (∃ g' : Geometry, g'.slots = slots) ↔
      slots.isPowerOfTwo ∧ slots ≤ (2 ^ 32 - 1) / 2) ∧
      live.Nodup ∧ (∀ s ∈ live, s < g.slots) ∧
      (slot g producerIndex ∈ live ↔ waiting = g.slots) ∧
      (gap producerIndex consumerIndex).toNat = waiting ∧
      (isFull g producerIndex consumerIndex = true ↔ waiting = g.slots) ∧
      (hasData producerIndex consumerIndex = true ↔ 0 < waiting) ∧
      ∀ index, slot g index = (index &&& (capacity g - 1)).toNat ∧
        slot g (index + 1) = (slot g index + 1) % g.slots := by
  intro producerIndex live
  have hgap : (gap producerIndex consumerIndex).toNat = waiting := by
    rw [gap_add, toNat_ofNat_of_le h]
  exact ⟨fun _ => Geometry.exists_slots_iff, nodup_liveSlots h, fun _ hs => lt_of_mem_liveSlots hs,
    slot_mem_liveSlots_iff h, hgap, isFull_add_iff h, hasData_add_iff h,
    fun index => ⟨slot_eq_masked g index, slot_add_one g index⟩⟩

/-- Three packets wait in a ring of four slots, the first of them at the last index before the
indices wrap. -/
theorem slots_apart_of_wrapped :
    let g : Geometry := ⟨2, 8, by decide⟩
    let live := liveSlots g 0xFFFFFFFF 3
    3 ≤ g.slots ∧ live = [3, 0, 1] ∧ live.Nodup ∧ slot g 2 ∉ live ∧
      (gap 2 0xFFFFFFFF).toNat = 3 ∧ isFull g 2 0xFFFFFFFF = false ∧
      hasData 2 0xFFFFFFFF = true ∧ slot g (0xFFFFFFFF + 1) = 0 := by
  intro g live
  have hroom : 3 ≤ g.slots := by decide
  obtain ⟨-, hnodup, -, hproducer, hgap, hfull, hdata, hslot⟩ := slots_apart g 0xFFFFFFFF hroom
  have hfree : 3 ≠ g.slots := by decide
  refine ⟨hroom, by decide, hnodup, fun hmem => hfree (hproducer.mp hmem), hgap, ?_,
    hdata.mpr (by decide), (hslot 0xFFFFFFFF).2.trans (by decide)⟩
  exact Bool.eq_false_iff.mpr fun htrue => hfree (hfull.mp htrue)

end Ring

end TraceRing
