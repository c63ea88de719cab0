import TraceRing.Proofs.Consumer.Courses
import TraceRing.Ring.Image

/-!
# Rings read back

The image of a ring stands for that ring alone (`Ring.decode_encode`), and images in a region do
not overlap: a ring that was stored reads back, and storing it changes no other
(`Ring.load_store_self`, `Ring.load_store_of_ne`). In memory of zeros all rings are empty.
-/

namespace TraceRing

namespace Bytes

theorem overlay_eq_overwrite {offset : Nat} {data target : Bytes}
    (h : offset + data.length ≤ target.length) :
    overlay offset data target = overwrite offset data target := by
  rw [overlay, List.take_of_length_le (by omega)]

/-- Storing as many bytes as there are leaves nothing else. -/
theorem overlay_zero {data target : Bytes} (h : data.length = target.length) :
    overlay 0 data target = data := by
  simp [overlay, overwrite, ← h]

theorem value_eq_zero {bs : Bytes} (h : ∀ b ∈ bs, b = 0) : value bs = 0 := by
  induction bs with
  | nil => rfl
  | cons b bs ih =>
    obtain ⟨hb, hbs⟩ := List.forall_mem_cons.mp h
    rw [value, ih hbs, hb]
    rfl

theorem word_zero (w : Nat) : ∀ b ∈ word w 0, b = 0 := by
  induction w with
  | zero => simp [word]
  | succ w ih => exact List.forall_mem_cons.mpr ⟨rfl, ih⟩

/-- Stored bytes are among the new ones, and all others among the old ones. -/
theorem mem_of_mem_overlay {offset : Nat} {data target : Bytes} {b : UInt8}
    (h : b ∈ overlay offset data target) : b ∈ data ∨ b ∈ target := by
  simp only [overlay, overwrite, List.mem_append] at h
  rcases h with (hbefore | hdata) | hbehind
  · exact .inr (List.mem_of_mem_take hbefore)
  · exact .inl (List.mem_of_mem_take hdata)
  · exact .inr (List.mem_of_mem_drop hbehind)

end Bytes

variable {g : Geometry}

theorem Packet.ofBytes_toList (p : Packet g) : Packet.ofBytes g p.toList = p := by
  apply Vector.ext
  intro i hi
  simp [Packet.ofBytes]

namespace Ring

open Files (Contents)

/-! ## One image -/

theorem encode_eq (r : Ring g) :
    r.encode = Bytes.word 4 r.consumerIndex.toNat ++ (Bytes.word 4 r.producerIndex.toNat
      ++ (stream r.packets.toList ++ r.textArea.toList)) := by
  simp only [encode, stream, List.append_assoc]

@[simp] theorem length_encode (r : Ring g) : r.encode.length = bodySize g := by
  simp only [encode_eq, List.length_append, Bytes.length_word, length_stream,
    Vector.length_toList, bodySize]
  omega

theorem ofNat_value_word (index : UInt32) :
    UInt32.ofNat (Bytes.value (Bytes.word 4 index.toNat)) = index := by
  have hlt : index.toNat < 256 ^ 4 := index.toNat_lt
  rw [Bytes.value_word, Nat.mod_eq_of_lt hlt, UInt32.ofNat_toNat]

theorem length_slots (r : Ring g) :
    (stream r.packets.toList).length = g.slots * g.packetSize := by
  rw [length_stream, Vector.length_toList]

/-- Behind the two index words come the slots and the text area. -/
theorem drop_encode (r : Ring g) (rest : Bytes) :
    (r.encode ++ rest).drop 8 = stream r.packets.toList ++ (r.textArea.toList ++ rest) := by
  rw [encode_eq, ← List.append_assoc (Bytes.word 4 _), List.append_assoc,
    List.drop_left' (by simp only [List.length_append, Bytes.length_word]), List.append_assoc]

/-- The bytes of a slot in the image. -/
theorem take_drop_encode (r : Ring g) (rest : Bytes) {i : Nat} (hi : i < g.slots) :
    ((r.encode ++ rest).drop (8 + i * g.packetSize)).take g.packetSize = r.packets[i].toList := by
  have hk : i < r.packets.toList.length := by rwa [Vector.length_toList]
  have hslots := length_slots r
  have hle : (i + 1) * g.packetSize ≤ g.slots * g.packetSize := Nat.mul_le_mul_right _ hi
  have hstream := take_drop_stream r.packets.toList hk
  rw [Nat.succ_mul] at hle
  rw [Vector.getElem_toList] at hstream
  rw [← List.drop_drop, drop_encode, List.drop_append_of_le_length (by omega),
    List.take_append_of_le_length (by rw [List.length_drop]; omega), hstream]

/-- An image stands for the ring it was made of, whatever comes behind it. -/
theorem decode_encode (r : Ring g) (rest : Bytes) : decode g (r.encode ++ rest) = r := by
  have hword : ∀ n : Nat, (Bytes.word 4 n).length = 4 := Bytes.length_word 4
  have htext : (r.encode ++ rest).drop (8 + g.slots * g.packetSize) =
      r.textArea.toList ++ rest := by
    rw [← List.drop_drop, drop_encode, List.drop_left' (length_slots r)]
  have hslot : ∀ i (hi : i < g.slots),
      ((r.encode ++ rest).drop (8 + i * g.packetSize)).take g.packetSize = r.packets[i].toList :=
    fun i hi => take_drop_encode r rest hi
  obtain ⟨consumerIndex, producerIndex, packets, textArea⟩ := r
  simp only [decode, Ring.mk.injEq]
  refine ⟨?_, ?_, ?_, ?_⟩
  · rw [encode_eq, List.append_assoc, List.take_left' (hword _), ofNat_value_word]
  · rw [encode_eq, List.append_assoc, List.drop_left' (hword _), List.append_assoc,
      List.take_left' (hword _), ofNat_value_word]
  · apply Vector.ext
    intro i hi
    rw [Vector.getElem_ofFn, hslot i hi, Packet.ofBytes_toList]
  · apply Vector.ext
    intro i hi
    have hlt : i < textArea.toList.length := by rwa [Vector.length_toList]
    rw [Vector.getElem_ofFn, htext]
    simp [List.getElem?_append_left hlt, hi]

/-! ## Rings in a region -/

section Store

variable {memory : Contents} {place : Nat}

@[simp] theorem size_store (memory : Contents) (place : Nat) (r : Ring g) :
    (store memory place r).size = memory.size :=
  Contents.size_overlay ..

theorem toBytes_store (r : Ring g) (h : (place + 1) * imageSize g ≤ memory.size) :
    (store memory place r).toBytes =
      Bytes.overwrite (place * imageSize g) r.encode memory.toBytes := by
  have hbody := bodySize_le_imageSize g
  rw [Nat.succ_mul] at h
  rw [store, Contents.toBytes_overlay, Contents.toBytes_ofBytes, Bytes.overlay_eq_overwrite]
  rw [length_encode, Contents.length_toBytes]
  omega

theorem load_store_self (r : Ring g) (h : (place + 1) * imageSize g ≤ memory.size) :
    load g (store memory place r) place = r := by
  have hbody := bodySize_le_imageSize g
  have hoffset : place * imageSize g ≤ memory.toBytes.length := by
    rw [Nat.succ_mul] at h
    rw [Contents.length_toBytes]
    omega
  rw [load, Contents.toBytes_take, Contents.toBytes_drop, toBytes_store r h,
    Bytes.drop_overwrite_self _ hoffset, List.take_append, List.take_of_length_le (by simpa),
    decode_encode]

theorem load_store_of_ne (r : Ring g) (h : (place + 1) * imageSize g ≤ memory.size) {q : Nat}
    (hne : place ≠ q) : load g (store memory place r) q = load g memory q := by
  have hbody := bodySize_le_imageSize g
  have hinside : place * imageSize g + r.encode.length ≤ memory.toBytes.length := by
    rw [Nat.succ_mul] at h
    rw [Contents.length_toBytes, length_encode]
    omega
  have hapart : q * imageSize g + imageSize g ≤ place * imageSize g ∨
      place * imageSize g + r.encode.length ≤ q * imageSize g := by
    rw [length_encode]
    rcases Nat.lt_or_gt_of_ne hne with hbefore | hbehind
    · have hle : (place + 1) * imageSize g ≤ q * imageSize g := Nat.mul_le_mul_right _ hbefore
      rw [Nat.succ_mul] at hle
      omega
    · have hle : (q + 1) * imageSize g ≤ place * imageSize g := Nat.mul_le_mul_right _ hbehind
      rw [Nat.succ_mul] at hle
      omega
  rw [load, load, Contents.toBytes_take, Contents.toBytes_drop, Contents.toBytes_take,
    Contents.toBytes_drop, toBytes_store r h, Bytes.take_drop_overwrite_of_apart hinside hapart]

/-- The rings stored from a place on read back, and the others stay. -/
theorem load_storeFrom (rings : List (Ring g)) (h : (place + rings.length) * imageSize g ≤
    memory.size) (q : Nat) :
    load g ((rings.zipIdx place).foldl (fun memory entry => store memory entry.2 entry.1) memory) q
      = if place ≤ q then (rings[q - place]?).getD (load g memory q) else load g memory q := by
  induction rings generalizing place memory with
  | nil => simp
  | cons r rest ih =>
    have hfits : (place + 1 + rest.length) * imageSize g ≤ (store memory place r).size := by
      rw [size_store, Nat.add_assoc, Nat.add_comm 1]
      exact h
    have hfirst : (place + 1) * imageSize g ≤ memory.size := by
      refine Nat.le_trans (Nat.mul_le_mul_right _ ?_) h
      rw [List.length_cons]
      omega
    rw [List.zipIdx_cons, List.foldl_cons, ih hfits]
    rcases Nat.lt_trichotomy place q with hlater | rfl | hearlier
    · have hindex : q - place = q - (place + 1) + 1 := by omega
      rw [if_pos (Nat.succ_le_of_lt hlater), if_pos (Nat.le_of_lt hlater), hindex,
        List.getElem?_cons_succ, load_store_of_ne r hfirst (Nat.ne_of_lt hlater)]
    · rw [if_neg (Nat.not_succ_le_self place), if_pos (Nat.le_refl place), Nat.sub_self,
        List.getElem?_cons_zero, Option.getD_some, load_store_self r hfirst]
    · rw [if_neg (by omega), if_neg (by omega),
        load_store_of_ne r hfirst (Nat.ne_of_gt hearlier)]

/-- A region gives all rings back that were stored in it. -/
theorem loadAll_storeAll {rings : List (Ring g)} (h : regionSize g rings.length ≤ memory.size) :
    loadAll g rings.length (storeAll memory rings) = rings := by
  have hfits : (0 + rings.length) * imageSize g ≤ memory.size := by
    rw [Nat.zero_add, Nat.mul_comm]
    exact h
  apply List.ext_getElem
  · simp [loadAll]
  · intro q hq hq'
    simp [loadAll, storeAll, load_storeFrom rings hfits, hq']

end Store

@[simp] theorem size_storeAll (memory : Contents) (rings : List (Ring g)) :
    (storeAll memory rings).size = memory.size := by
  simp only [storeAll]
  generalize rings.zipIdx = entries
  induction entries generalizing memory with
  | nil => rfl
  | cons entry rest ih => rw [List.foldl_cons, ih, size_store]

end Ring

/-! ## Memory of zeros -/

/-- All bytes are zero. -/
def Files.Contents.IsBlank (c : Contents) : Prop :=
  ∀ b ∈ c.toBytes, b = 0

theorem Files.Contents.isBlank_of_size_eq_zero {c : Contents} (h : c.size = 0) : c.IsBlank := by
  have hnil : c.toBytes = [] := by rwa [← List.length_eq_zero_iff, length_toBytes]
  rw [IsBlank, hnil]
  nofun

namespace Ring

open Files (Contents)

theorem decode_of_zeros {image : Bytes} (h : ∀ b ∈ image, b = 0) : decode g image = empty g := by
  have hdrop : ∀ n, ∀ b ∈ image.drop n, b = 0 := fun n b hb => h b (List.mem_of_mem_drop hb)
  have hget : ∀ bytes : Bytes, (∀ b ∈ bytes, b = 0) → ∀ i : Nat, (bytes[i]?).getD 0 = 0 := by
    intro bytes hbytes i
    cases hb : bytes[i]? with
    | none => rfl
    | some b => exact hbytes b (List.mem_of_getElem? hb)
  simp only [decode, empty, Ring.mk.injEq]
  refine ⟨?_, ?_, ?_, ?_⟩
  · rw [Bytes.value_eq_zero fun b hb => h b (List.mem_of_mem_take hb)]
    rfl
  · rw [Bytes.value_eq_zero fun b hb => hdrop 4 b (List.mem_of_mem_take hb)]
    rfl
  · apply Vector.ext
    intro i hi
    rw [Vector.getElem_ofFn, Vector.getElem_replicate]
    apply Vector.ext
    intro k hk
    simpa [Packet.ofBytes, Packet.zero, hk] using hget image h (8 + i * g.packetSize + k)
  · apply Vector.ext
    intro i hi
    have hzero := hget _ (hdrop (8 + g.slots * g.packetSize)) i
    simpa using hzero

theorem load_of_blank {memory : Contents} (h : memory.IsBlank) (place : Nat) :
    load g memory place = empty g := by
  apply decode_of_zeros
  rw [Contents.toBytes_take, Contents.toBytes_drop]
  exact fun b hb => h b (List.mem_of_mem_drop (List.mem_of_mem_take hb))

theorem encode_empty : ∀ b ∈ (empty g).encode, b = 0 := by
  intro b hb
  simp only [encode_eq, List.mem_append] at hb
  rcases hb with hconsumer | hproducer | hslots | htext
  · exact Bytes.word_zero 4 b hconsumer
  · exact Bytes.word_zero 4 b hproducer
  · simp only [stream, empty, List.mem_flatMap, Vector.toList_replicate] at hslots
    obtain ⟨packet, hpacket, hbyte⟩ := hslots
    rw [List.eq_of_mem_replicate hpacket, Packet.zero, Vector.toList_replicate] at hbyte
    exact List.eq_of_mem_replicate hbyte
  · rw [empty, Vector.toList_replicate] at htext
    exact List.eq_of_mem_replicate htext

/-- Storing empty rings leaves memory of zeros. -/
theorem storeAll_of_blank {memory : Contents} (h : memory.IsBlank) {rings : List (Ring g)}
    (hempty : ∀ r ∈ rings, r = empty g) : (storeAll memory rings).IsBlank := by
  have hentries : ∀ entry ∈ rings.zipIdx, entry.1 = empty g := fun entry hentry =>
    hempty entry.1 (List.fst_mem_of_mem_zipIdx hentry)
  simp only [storeAll]
  generalize rings.zipIdx = entries at hentries
  induction entries generalizing memory with
  | nil => exact h
  | cons entry rest ih =>
    obtain ⟨hfirst, hrest⟩ := List.forall_mem_cons.mp hentries
    rw [List.foldl_cons]
    refine ih ?_ hrest
    intro b hb
    rw [store, Contents.toBytes_overlay, Contents.toBytes_ofBytes, hfirst] at hb
    rcases Bytes.mem_of_mem_overlay hb with hnew | hold
    · exact encode_empty b hnew
    · exact h b hold

end Ring

end TraceRing
