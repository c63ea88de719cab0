import TraceRing.Proofs.Producer.Encoders

/-!
# What the encoder writes

A packet is patched word by word. A word that was stored reads back, and the words beside it stay
what they were (`Bytes.field_overwrite_self`, `Bytes.field_overwrite_of_apart`). So the header of a
packet can be told from the calls that made it: starting a packet gives it its number, its place
and its time, and ending it adds another time and leaves these three alone.
-/

namespace TraceRing

/-! ## Fields -/

namespace Bytes

/-- The number in the `w` bytes from `offset` on. -/
def field (offset w : Nat) (bytes : Bytes) : Nat :=
  value ((bytes.drop offset).take w)

theorem field_overwrite_self {offset w : Nat} {target : Bytes} (n : Nat)
    (h : offset ≤ target.length) :
    field offset w (overwrite offset (word w n) target) = n % 256 ^ w := by
  rw [field, drop_overwrite_self _ h, List.take_left' (length_word w n), value_word]

/-- A field that the stored bytes do not touch. -/
theorem field_overwrite_of_apart {offset w start : Nat} {data target : Bytes}
    (hinside : start + data.length ≤ target.length)
    (hapart : offset + w ≤ start ∨ start + data.length ≤ offset) :
    field offset w (overwrite start data target) = field offset w target := by
  rw [field, take_drop_overwrite_of_apart hinside hapart, field]

end Bytes

variable {g : Geometry}

namespace Packet

/-- Storing in a packet is storing in its bytes. -/
theorem toList_patch {p patched : Packet g} {offset : Nat} {bytes : Bytes}
    (h : p.patch offset bytes = .ok patched) :
    offset + bytes.length ≤ g.packetSize ∧
      patched.toList = Bytes.overwrite offset bytes p.toList := by
  unfold patch at h
  split at h
  · cases h
  · split at h
    · cases h
    · split at h
      · cases h
      · next hinside =>
        cases h
        refine ⟨Nat.le_of_not_lt hinside, ?_⟩
        have hfits : offset + bytes.length ≤ p.toList.length := by
          rw [Vector.length_toList]
          exact Nat.le_of_not_lt hinside
        have hoffset : (p.toList.take offset).length = offset :=
          List.length_take_of_le (Nat.le_trans (Nat.le_add_right ..) hfits)
        apply List.ext_getElem
        · rw [Bytes.length_overwrite hfits, Vector.length_toList, Vector.length_toList]
        · intro k hk hk'
          have hlast : (p.toList.take offset ++ bytes).length = offset + bytes.length := by
            rw [List.length_append, hoffset]
          simp only [Vector.getElem_toList, Vector.getElem_ofFn, Bytes.overwrite]
          -- before the range, inside it, and behind it
          rcases Nat.lt_or_ge k offset with hbefore | hfrom
          · rw [if_neg (by omega), List.getElem_append_left (by omega),
              List.getElem_append_left (by omega), List.getElem_take, Vector.getElem_toList]
            rfl
          · rcases Nat.lt_or_ge k (offset + bytes.length) with hwithin | hbehind
            · rw [if_pos ⟨hfrom, hwithin⟩, List.getElem_append_left (by omega),
                List.getElem_append_right (by omega)]
              have hindex : k - offset < bytes.length := by omega
              simp [hoffset, Array.getD, hindex]
            · rw [if_neg (by omega), List.getElem_append_right (by omega), List.getElem_drop,
                Vector.getElem_toList]
              simp only [hlast, Nat.add_sub_cancel' hbehind]
              rfl

/-- The header of a packet. -/
def header (p : Packet g) : Header :=
  Header.decode p.toList

variable {p patched : Packet g} {offset w n : Nat}

/-- A word that was stored reads back. -/
theorem field_patch_self (h : p.patch offset (Bytes.word w n) = .ok patched) :
    Bytes.field offset w patched.toList = n % 256 ^ w := by
  obtain ⟨hinside, hlist⟩ := toList_patch h
  rw [hlist]
  apply Bytes.field_overwrite_self
  rw [Vector.length_toList]
  exact Nat.le_trans (Nat.le_add_right ..) hinside

/-- The words beside it stay what they were. -/
theorem field_patch_of_apart {start : Nat} {bytes : Bytes} (h : p.patch start bytes = .ok patched)
    (hapart : offset + w ≤ start ∨ start + bytes.length ≤ offset) :
    Bytes.field offset w patched.toList = Bytes.field offset w p.toList := by
  obtain ⟨hinside, hlist⟩ := toList_patch h
  rw [hlist]
  apply Bytes.field_overwrite_of_apart _ hapart
  rw [Vector.length_toList]
  exact hinside

end Packet

namespace Encoder

/-- Starting a packet with room for the whole header opens it, with its number, its place and its
time in the header. -/
theorem startPacket_of_fits (e : Encoder) (time : UInt64) (place : Nat) (h : 28 ≤ g.packetSize) :
    ∃ packet : Packet g,
      e.startPacket time (.ok place) = (.ok (), { e with events := 0, isOpen := true }, packet) ∧
      packet.header.seq = e.seq.toNat ∧ packet.header.core = place % 2 ^ 32 ∧
      packet.header.opened = time.toNat := by
  obtain ⟨numbered, hnumbered⟩ := (Packet.zero g).patch_of_inside 0 (Bytes.word 4 e.seq.toNat)
    (by simp only [Bytes.length_word]; omega) (by simp)
  obtain ⟨placed, hplaced⟩ := numbered.patch_of_inside 4 (Bytes.word 4 place)
    (by simp only [Bytes.length_word]; omega) (by simp)
  obtain ⟨timed, htimed⟩ := placed.patch_of_inside 8 (Bytes.word 8 time.toNat)
    (by simp only [Bytes.length_word]; omega) (by simp)
  refine ⟨timed, ?_, ?_, ?_, ?_⟩
  · simp only [startPacket, hnumbered, hplaced, htimed]
  · calc timed.header.seq
        = Bytes.field 0 4 timed.toList := rfl
      _ = Bytes.field 0 4 placed.toList := Packet.field_patch_of_apart htimed (by simp)
      _ = Bytes.field 0 4 numbered.toList := Packet.field_patch_of_apart hplaced (by simp)
      _ = e.seq.toNat % 256 ^ 4 := Packet.field_patch_self hnumbered
      _ = e.seq.toNat := Nat.mod_eq_of_lt e.seq.toNat_lt
  · calc timed.header.core
        = Bytes.field 4 4 timed.toList := rfl
      _ = Bytes.field 4 4 placed.toList := Packet.field_patch_of_apart htimed (by simp)
      _ = place % 256 ^ 4 := Packet.field_patch_self hplaced
  · calc timed.header.opened
        = Bytes.field 8 8 timed.toList := rfl
      _ = time.toNat % 256 ^ 8 := Packet.field_patch_self htimed
      _ = time.toNat := Nat.mod_eq_of_lt time.toNat_lt

/-- Ending a packet adds its time to the header and leaves the words before it alone. -/
theorem header_endPacket (e : Encoder) (time : UInt64) (packet : Packet g)
    (h : (e.endPacket time packet).1 = .ok ()) :
    (e.endPacket time packet).2.2.header =
      { packet.header with closed := time.toNat, events := e.events.toNat } := by
  simp only [endPacket] at h ⊢
  split at h
  · cases h
  · next timed htimed =>
    split at h
    · cases h
    · next counted hcounted =>
      have hkeep : ∀ offset w, offset + w ≤ 16 →
          Bytes.field offset w counted.toList = Bytes.field offset w packet.toList := by
        intro offset w hbefore
        rw [Packet.field_patch_of_apart hcounted (.inl (by omega)),
          Packet.field_patch_of_apart htimed (.inl hbefore)]
      have hclosed : Bytes.field 16 8 counted.toList = time.toNat := by
        rw [Packet.field_patch_of_apart hcounted (.inl (Nat.le_refl _)),
          Packet.field_patch_self htimed]
        exact Nat.mod_eq_of_lt time.toNat_lt
      have hevents : Bytes.field 24 4 counted.toList = e.events.toNat := by
        rw [Packet.field_patch_self hcounted]
        exact Nat.mod_eq_of_lt e.events.toNat_lt
      simp only [Packet.header, Header.decode, Header.mk.injEq]
      exact ⟨hkeep 0 4 (by decide), hkeep 4 4 (by decide), hkeep 8 8 (by decide), hclosed, hevents⟩

end Encoder

end TraceRing
