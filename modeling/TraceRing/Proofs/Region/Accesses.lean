import TraceRing.Proofs.Program.Regions

/-!
# Regions as images of their rings

Any number of handles may have mapped one file. Whatever they do to the rings of it, in any order,
the bytes of the file are those of the rings that the operations on each core make of its ring by
themselves (`Region.stays_mirrored`). An operation on a ring changes no byte outside the image of
that ring, and none of the padding behind it.
-/

namespace TraceRing

open Files (Contents Tree)

variable {g : Geometry}

/-! ## Parts of byte strings -/

namespace Bytes

/-- Some bytes of a byte string, from `start` on. -/
def part (start length : Nat) (bs : Bytes) : Bytes :=
  (bs.drop start).take length

theorem value_lt (bs : Bytes) : value bs < 256 ^ bs.length := by
  induction bs with
  | nil => decide
  | cons b bs ih =>
    have hb : b.toNat < 256 := b.toNat_lt
    rw [value, List.length_cons, Nat.pow_succ']
    omega

theorem length_part {start length : Nat} {bs : Bytes} (h : start + length ≤ bs.length) :
    (part start length bs).length = length := by
  rw [part, List.length_take, List.length_drop]
  omega

/-- A part of a part. -/
theorem part_part {start length offset size : Nat} (bs : Bytes) (h : offset + size ≤ length) :
    part offset size (part start length bs) = part (start + offset) size bs := by
  rw [part, part, part, List.drop_take, List.take_take, List.drop_drop,
    Nat.min_eq_left (by omega)]

theorem getElem?_overwrite_of_apart {offset k : Nat} {data target : Bytes}
    (hinside : offset + data.length ≤ target.length)
    (hapart : k < offset ∨ offset + data.length ≤ k) :
    (overwrite offset data target)[k]? = target[k]? := by
  have hlength : (target.take offset).length = offset :=
    List.length_take_of_le (Nat.le_trans (Nat.le_add_right ..) hinside)
  rcases hapart with hbefore | hbehind
  · rw [overwrite, List.append_assoc, List.getElem?_append_left (by omega),
      List.getElem?_take_of_lt hbefore]
  · rw [overwrite, List.getElem?_append_right (by rw [List.length_append]; omega),
      List.getElem?_drop, List.length_append, hlength, Nat.add_sub_cancel' hbehind]

end Bytes

/-- A vector filled from the start of a byte string. -/
theorem toList_ofFn_getD {n : Nat} {bs : Bytes} (h : n ≤ bs.length) :
    (Vector.ofFn fun i : Fin n => bs.toArray.getD i.val 0).toList = bs.take n := by
  apply List.ext_getElem
  · simp [h]
  · intro i hi hi'
    have hlt : i < bs.length := by
      simp only [List.length_take] at hi'
      omega
    simp [hlt]

namespace Ring

/-! ## Rings in bytes -/

/-- The bytes from an offset on are those of a ring: its two indices as little-endian words, its
packets, and its text area. -/
structure IsAt (r : Ring g) (bytes : Bytes) (offset : Nat) : Prop where
  consumerIndex : Bytes.value (bytes.part offset 4) = r.consumerIndex.toNat
  producerIndex : Bytes.value (bytes.part (offset + 4) 4) = r.producerIndex.toNat
  packets : ∀ (i : Nat) (hi : i < g.slots),
    bytes.part (offset + (8 + i * g.packetSize)) g.packetSize = r.packets[i].toList
  textArea : bytes.part (offset + (8 + g.slots * g.packetSize)) textAreaSize = r.textArea.toList

theorem toNat_ofNat_value {bs : Bytes} (h : bs.length = 4) :
    (UInt32.ofNat (Bytes.value bs)).toNat = Bytes.value bs := by
  have hlt := Bytes.value_lt bs
  rw [h] at hlt
  exact UInt32.toNat_ofNat_of_lt' hlt

/-- The ring in an image is the one whose bytes stand there. -/
theorem decode_eq_iff {image : Bytes} (h : bodySize g ≤ image.length) (r : Ring g) :
    decode g image = r ↔ r.IsAt image 0 := by
  have hslots : 8 + g.slots * g.packetSize + textAreaSize ≤ image.length := h
  have hconsumer : (image.take 4).length = 4 := List.length_take_of_le (by omega)
  have hproducer : ((image.drop 4).take 4).length = 4 := by
    rw [List.length_take, List.length_drop]
    omega
  have hpacket : ∀ i, i < g.slots →
      (Packet.ofBytes g (image.part (8 + i * g.packetSize) g.packetSize)).toList =
        image.part (8 + i * g.packetSize) g.packetSize := by
    intro i hi
    have hle : (i + 1) * g.packetSize ≤ g.slots * g.packetSize := Nat.mul_le_mul_right _ hi
    rw [Nat.succ_mul] at hle
    have hlength : (image.part (8 + i * g.packetSize) g.packetSize).length = g.packetSize :=
      Bytes.length_part (by omega)
    rw [Packet.ofBytes, toList_ofFn_getD (Nat.le_of_eq hlength.symm),
      List.take_of_length_le (Nat.le_of_eq hlength)]
  have htext : (Vector.ofFn fun i : Fin textAreaSize =>
      (image.drop (8 + g.slots * g.packetSize)).toArray.getD i.val 0).toList =
        image.part (8 + g.slots * g.packetSize) textAreaSize := by
    rw [toList_ofFn_getD (by rw [List.length_drop]; omega), Bytes.part]
  constructor
  · rintro rfl
    refine ⟨?_, ?_, fun i hi => ?_, ?_⟩
    · exact (toNat_ofNat_value hconsumer).symm
    · rw [Nat.zero_add]
      exact (toNat_ofNat_value hproducer).symm
    · rw [Nat.zero_add, ← hpacket i hi]
      simp only [decode, Vector.getElem_ofFn, Bytes.part]
    · rw [Nat.zero_add, ← htext]
      rfl
  · intro hat
    obtain ⟨consumerIndex, producerIndex, packets, textArea⟩ := r
    have hconsumerIndex := hat.consumerIndex
    have hproducerIndex := hat.producerIndex
    simp only [Bytes.part, List.drop_zero, Nat.zero_add] at hconsumerIndex hproducerIndex
    simp only [decode, Ring.mk.injEq]
    refine ⟨?_, ?_, ?_, ?_⟩
    · rw [hconsumerIndex, UInt32.ofNat_toNat]
    · rw [hproducerIndex, UInt32.ofNat_toNat]
    · apply Vector.ext
      intro i hi
      have hbytes := hat.packets i hi
      rw [Nat.zero_add, ← hpacket i hi] at hbytes
      rw [Vector.getElem_ofFn]
      exact Vector.toList_inj.mp hbytes
    · have hbytes := hat.textArea
      rw [Nat.zero_add, ← htext] at hbytes
      exact Vector.toList_inj.mp hbytes

/-- The ring at a place of a region is the one whose bytes stand there. -/
theorem load_eq_iff {memory : Contents} {place : Nat}
    (h : (place + 1) * imageSize g ≤ memory.size) (r : Ring g) :
    load g memory place = r ↔ r.IsAt memory.toBytes (place * imageSize g) := by
  have hbody : 8 + g.slots * g.packetSize + textAreaSize ≤ imageSize g := bodySize_le_imageSize g
  have himage : ((memory.drop (place * imageSize g)).take (imageSize g)).toBytes =
      memory.toBytes.part (place * imageSize g) (imageSize g) := by
    rw [Contents.toBytes_take, Contents.toBytes_drop, Bytes.part]
  have hlength : (memory.toBytes.part (place * imageSize g) (imageSize g)).length =
      imageSize g := by
    rw [Nat.succ_mul] at h
    exact Bytes.length_part (by rwa [Contents.length_toBytes])
  have hpart : ∀ offset size, offset + size ≤ imageSize g →
      (memory.toBytes.part (place * imageSize g) (imageSize g)).part (0 + offset) size =
        memory.toBytes.part (place * imageSize g + offset) size := by
    intro offset size hle
    rw [Nat.zero_add, Bytes.part_part _ hle]
  have hpackets : ∀ i, i < g.slots → 8 + i * g.packetSize + g.packetSize ≤ imageSize g := by
    intro i hi
    have hle : (i + 1) * g.packetSize ≤ g.slots * g.packetSize := Nat.mul_le_mul_right _ hi
    rw [Nat.succ_mul] at hle
    omega
  rw [load, himage, decode_eq_iff (by rw [hlength]; exact bodySize_le_imageSize g)]
  have hfirst := hpart 0 4 (by omega)
  have hsecond := hpart 4 4 (by omega)
  have htext := hpart (8 + g.slots * g.packetSize) textAreaSize hbody
  rw [Nat.add_zero] at hfirst
  constructor
  · intro hat
    exact ⟨hfirst ▸ hat.consumerIndex, hsecond ▸ hat.producerIndex,
      fun i hi => hpart _ _ (hpackets i hi) ▸ hat.packets i hi, htext ▸ hat.textArea⟩
  · intro hat
    exact ⟨hfirst.symm ▸ hat.consumerIndex, hsecond.symm ▸ hat.producerIndex,
      fun i hi => (hpart _ _ (hpackets i hi)).symm ▸ hat.packets i hi, htext.symm ▸ hat.textArea⟩

end Ring

namespace Region

/-! ## Accesses -/

/-- What is done to a region through a handle. -/
inductive Access (g : Geometry) where
  /-- An operation on the ring of a core. -/
  | ring (core : Core) (op : Ring.Op g)
  /-- All rings are reset. -/
  | reset

def access (r : Region) (grid : Grid) (t : Tree) :
    Access g → Except Fault (Ring.Answer g) × Tree
  | .ring core op => r.runRing grid t core op
  | .reset => (.ok .done, r.zero g grid t)

/-- The files after accesses through some handles. -/
def accessAll (grid : Grid) (t : Tree) (accesses : List (Region × Access g)) : Tree :=
  accesses.foldl (fun t a => (a.1.access grid t a.2).2) t

namespace Access

/-- Whether an access is addressed to the ring at a place. -/
def reaches (grid : Grid) (place : Nat) : Access g → Bool
  | .ring core _ =>
    match Region.place grid core with
    | .ok i => i == place
    | .error _ => false
  | .reset => true

/-- What an access does to a ring by itself. -/
def perform (ring : Ring g) : Access g → Ring g
  | .ring _ op => (ring.run op).2
  | .reset => Ring.empty g

end Access

/-- The ring at a place after the accesses that are addressed to it, by themselves. -/
def alone (grid : Grid) (place : Nat) (first : Ring g) (accesses : List (Access g)) : Ring g :=
  (accesses.filter (Access.reaches grid place)).foldl Access.perform first

variable {grid : Grid} {r : Region} {t : Tree} {core : Core} {op : Ring.Op g} {i j : Nat}

theorem reaches_ring (h : place grid core = .ok i) :
    (Access.ring core op).reaches grid j = decide (i = j) := by
  simp only [Access.reaches, h]
  rfl

theorem access_of_place (h : place grid core = .ok i) :
    r.access grid t (.ring core op) =
      (.ok ((Ring.load g (t.read r.inode) i).run op).1,
        t.write r.inode
          (Ring.store (t.read r.inode) i ((Ring.load g (t.read r.inode) i).run op).2)) := by
  simp only [access, runRing, h]

theorem access_of_fault {fault : Fault} (h : place grid core = .error fault) :
    r.access grid t (.ring core op) = (.error fault, t) := by
  simp only [access, runRing, h]

section File

variable (hsize : (t.read r.inode).size = size g grid)
include hsize

theorem lt_of_size : r.inode < t.contents.size :=
  Tree.lt_of_size_pos (hsize ▸ size_pos g grid)

/-- An access keeps all names, and the size of every file. -/
theorem access_frame (a : Access g) :
    (r.access grid t a).2.directories = t.directories ∧
      (r.access grid t a).2.sizeLimit = t.sizeLimit ∧
      ∀ inode, ((r.access grid t a).2.read inode).size = (t.read inode).size := by
  have hlt := lt_of_size hsize
  have hwrite : ∀ c : Contents, c.size = (t.read r.inode).size → ∀ inode,
      ((t.write r.inode c).read inode).size = (t.read inode).size := by
    intro c hc inode
    by_cases heq : r.inode = inode
    · subst heq
      rw [Tree.read_write_self hlt, hc]
    · rw [Tree.read_write_of_ne heq]
  cases a with
  | reset => exact ⟨rfl, rfl, hwrite _ (by simp)⟩
  | ring core op =>
    cases hplace : place grid core with
    | error fault =>
      rw [access_of_fault hplace]
      exact ⟨rfl, rfl, fun _ => rfl⟩
    | ok i =>
      rw [access_of_place hplace]
      exact ⟨rfl, rfl, hwrite _ (by simp)⟩

omit hsize in
/-- An access changes no file but the one that is mapped. -/
theorem read_access_of_ne {inode : Nat} (h : r.inode ≠ inode) (a : Access g) :
    (r.access grid t a).2.read inode = t.read inode := by
  cases a with
  | reset => exact Tree.read_write_of_ne h _
  | ring core op =>
    cases hplace : place grid core with
    | error fault => rw [access_of_fault hplace]
    | ok i =>
      rw [access_of_place hplace]
      exact Tree.read_write_of_ne h _

/-- An access does to a ring what it does to it by itself if it is addressed to it, and nothing
otherwise. -/
theorem load_access (a : Access g) (hj : j < grid.count) :
    Ring.load g ((r.access grid t a).2.read r.inode) j =
      if a.reaches grid j then a.perform (Ring.load g (t.read r.inode) j)
      else Ring.load g (t.read r.inode) j := by
  have hlt := lt_of_size hsize
  cases a with
  | reset => exact Ring.load_of_blank (read_zero hsize).2.2 j
  | ring core op =>
    cases hplace : place grid core with
    | error fault =>
      rw [access_of_fault hplace]
      simp only [Access.reaches, hplace, Bool.false_eq_true, if_false]
    | ok i =>
      have hinside : (i + 1) * Ring.imageSize g ≤ (t.read r.inode).size :=
        hsize ▸ image_le_size g (lt_of_place hplace)
      rw [access_of_place hplace, reaches_ring hplace, Tree.read_write_self hlt]
      by_cases hij : i = j
      · subst hij
        rw [Ring.load_store_self _ hinside, decide_eq_true rfl]
        rfl
      · rw [Ring.load_store_of_ne _ hinside hij, decide_eq_false hij]
        rfl

/-- The bytes that an operation on a ring changes are those of its ring, without the padding. -/
theorem getElem?_access {k : Nat} (hplace : place grid core = .ok i)
    (hapart : k < i * Ring.imageSize g ∨ i * Ring.imageSize g + Ring.bodySize g ≤ k) :
    ((r.access grid t (.ring core op)).2.read r.inode).toBytes[k]? =
      (t.read r.inode).toBytes[k]? := by
  have hinside : (i + 1) * Ring.imageSize g ≤ (t.read r.inode).size :=
    hsize ▸ image_le_size g (lt_of_place hplace)
  have hbody := Ring.bodySize_le_imageSize g
  rw [access_of_place hplace, Tree.read_write_self (lt_of_size hsize),
    Ring.toBytes_store _ hinside]
  apply Bytes.getElem?_overwrite_of_apart
  · rw [Ring.length_encode, Contents.length_toBytes]
    rw [Nat.succ_mul] at hinside
    omega
  · rwa [Ring.length_encode]

end File

/-- Accesses through handles that have mapped a file keep all names, and the size of every file. -/
theorem accessAll_frame {inode : Nat} (hsize : (t.read inode).size = size g grid)
    {accesses : List (Region × Access g)} (hmapped : ∀ a ∈ accesses, a.1.inode = inode) :
    (accessAll grid t accesses).directories = t.directories ∧
      ∀ other, ((accessAll grid t accesses).read other).size = (t.read other).size := by
  induction accesses generalizing t with
  | nil => exact ⟨rfl, fun _ => rfl⟩
  | cons first rest ih =>
    obtain ⟨rfl, hrest⟩ := List.forall_mem_cons.mp hmapped
    obtain ⟨hdirectories, -, hsizes⟩ := access_frame hsize first.2
    obtain ⟨hdirectories', hsizes'⟩ := ih ((hsizes _).trans hsize) hrest
    exact ⟨hdirectories'.trans hdirectories, fun other => (hsizes' other).trans (hsizes other)⟩

/-- The rings of a file after accesses through handles that have mapped it. -/
theorem load_accessAll {inode : Nat} (hsize : (t.read inode).size = size g grid)
    {accesses : List (Region × Access g)} (hmapped : ∀ a ∈ accesses, a.1.inode = inode)
    (hj : j < grid.count) :
    Ring.load g ((accessAll grid t accesses).read inode) j =
      alone grid j (Ring.load g (t.read inode) j) (accesses.map Prod.snd) := by
  induction accesses generalizing t with
  | nil => rfl
  | cons first rest ih =>
    obtain ⟨rfl, hrest⟩ := List.forall_mem_cons.mp hmapped
    obtain ⟨-, -, hsizes⟩ := access_frame hsize first.2
    rw [accessAll, List.foldl_cons]
    refine (ih ((hsizes _).trans hsize) hrest).trans ?_
    rw [load_access hsize first.2 hj, List.map_cons, alone, alone, List.filter_cons]
    split <;> rfl

/-! ## Mirrored rings -/

/-- A file holds nothing but the images of some rings, one for each core. -/
structure Mirrors (grid : Grid) (t : Tree) (inode : Nat) (ring : Nat → Ring g) : Prop where
  size : (t.read inode).size = size g grid
  images : ∀ i < grid.count, (ring i).IsAt (t.read inode).toBytes (i * Ring.imageSize g)

theorem mirrors_iff {inode : Nat} {ring : Nat → Ring g} :
    Mirrors grid t inode ring ↔ (t.read inode).size = Region.size g grid ∧
      ∀ i < grid.count, Ring.load g (t.read inode) i = ring i := by
  have hload : (t.read inode).size = Region.size g grid → ∀ i < grid.count,
      (Ring.load g (t.read inode) i = ring i ↔
        (ring i).IsAt (t.read inode).toBytes (i * Ring.imageSize g)) :=
    fun hsize i hi => Ring.load_eq_iff (hsize ▸ image_le_size g hi) _
  constructor
  · intro h
    exact ⟨h.size, fun i hi => (hload h.size i hi).mpr (h.images i hi)⟩
  · rintro ⟨hsize, hrings⟩
    exact ⟨hsize, fun i hi => (hload hsize i hi).mp (hrings i hi)⟩

/-- A handle answers for its file as some rings do, and what it does to the file stays within the
image of one ring. -/
structure IsFaithful (r : Region) (grid : Grid) (t : Tree) (ring : Nat → Ring g) : Prop where
  rings : r.rings g grid t = (List.range grid.count).map ring
  answer : ∀ core i (op : Ring.Op g), place grid core = .ok i →
    (r.access grid t (.ring core op)).1 = .ok ((ring i).run op).1
  /-- A core outside the grid is refused. -/
  fault : ∀ core fault (op : Ring.Op g), place grid core = .error fault →
    r.access grid t (.ring core op) = (.error fault, t)
  outside : ∀ core i (op : Ring.Op g) k, place grid core = .ok i →
    k < i * Ring.imageSize g ∨ (i + 1) * Ring.imageSize g ≤ k →
    ((r.access grid t (.ring core op)).2.read r.inode).toBytes[k]? = (t.read r.inode).toBytes[k]?
  /-- The padding of every ring is kept. -/
  padding : ∀ core i (op : Ring.Op g) j k, place grid core = .ok i →
    Ring.bodySize g ≤ k → k < Ring.imageSize g →
    ((r.access grid t (.ring core op)).2.read r.inode).toBytes[j * Ring.imageSize g + k]? =
      (t.read r.inode).toBytes[j * Ring.imageSize g + k]?
  reset : ((r.access grid t (.reset : Access g)).2.read r.inode).toBytes =
    List.replicate (size g grid) 0

/-- A handle is faithful to the rings whose images its file holds. -/
theorem Mirrors.isFaithful {ring : Nat → Ring g} (h : Mirrors grid t r.inode ring) :
    r.IsFaithful grid t ring := by
  obtain ⟨hsize, hrings⟩ := mirrors_iff.mp h
  have hbody := Ring.bodySize_le_imageSize g
  constructor
  · exact List.map_congr_left fun i hi => hrings i (List.mem_range.mp hi)
  · intro core i op hplace
    rw [access_of_place hplace, hrings i (lt_of_place hplace)]
  · intro core fault op hplace
    exact access_of_fault hplace
  · intro core i op k hplace hapart
    refine getElem?_access hsize hplace (hapart.imp_right fun hle => ?_)
    rw [Nat.succ_mul] at hle
    omega
  · intro core i op j k hplace hlow hhigh
    refine getElem?_access hsize hplace ?_
    rcases Nat.lt_or_ge j i with hbefore | hbehind
    · have hle : (j + 1) * Ring.imageSize g ≤ i * Ring.imageSize g :=
        Nat.mul_le_mul_right _ hbefore
      rw [Nat.succ_mul] at hle
      exact .inl (by omega)
    · have hle : i * Ring.imageSize g ≤ j * Ring.imageSize g := Nat.mul_le_mul_right _ hbehind
      exact .inr (by omega)
  · rw [access, zero, Tree.read_write_self (lt_of_size hsize), Contents.toBytes_overlay,
      Contents.toBytes_replicate, Bytes.overlay_zero (by simpa using hsize.symm)]

/-- A file that holds the images of some rings holds, after accesses through any handles on it, the
images of what the accesses to each ring make of that ring by themselves; and every handle on it
is faithful to those. -/
theorem stays_mirrored {inode : Nat} {first : Nat → Ring g} (hfirst : Mirrors grid t inode first)
    {accesses : List (Region × Access g)} (hmapped : ∀ a ∈ accesses, a.1.inode = inode) :
    let now := accessAll grid t accesses
    let ring := fun i => alone grid i (first i) (accesses.map Prod.snd)
    Mirrors grid now inode ring ∧ ∀ r : Region, r.inode = inode → r.IsFaithful grid now ring := by
  intro now ring
  obtain ⟨hsize, hrings⟩ := mirrors_iff.mp hfirst
  obtain ⟨-, hsizes⟩ := accessAll_frame hsize hmapped
  have hnow : Mirrors grid now inode ring := by
    refine mirrors_iff.mpr ⟨(hsizes inode).trans hsize, fun i hi => ?_⟩
    rw [load_accessAll hsize hmapped hi, hrings i hi]
  refine ⟨hnow, ?_⟩
  rintro r rfl
  exact hnow.isFaithful

/-! Two handles on a file of two rings, with one slot of one byte and three bytes of padding
each. -/

def narrow : Geometry :=
  ⟨0, 0, by decide⟩

def sideBySide : Grid :=
  ⟨1, 2, Nat.one_pos, Nat.two_pos⟩

def blankFile : Tree :=
  ⟨#[[]], #[.replicate 536 0], none⟩

def taking (owner : Bool) : Region :=
  ⟨Bytes.ofText "/region", 0, owner⟩

def turns : List (Region × Access narrow) :=
  [(taking true, .ring ⟨0, 0⟩ (.push (Vector.replicate _ 7))),
    (taking false, .ring ⟨0, 1⟩ (.writeText (Bytes.ofText "core"))),
    (taking false, .ring ⟨0, 0⟩ .pop),
    (taking true, .reset),
    (taking false, .ring ⟨0, 1⟩ (.write 1 (Vector.replicate _ 9)))]

theorem stays_mirrored_of_turns :
    Mirrors sideBySide blankFile 0 (fun _ => Ring.empty narrow) ∧
      (∀ a ∈ turns, a.1.inode = 0) ∧
      Mirrors sideBySide (accessAll sideBySide blankFile turns) 0 (fun i =>
        alone sideBySide i (Ring.empty narrow) (turns.map Prod.snd)) ∧
      (taking true).IsFaithful sideBySide (accessAll sideBySide blankFile turns) (fun i =>
        alone sideBySide i (Ring.empty narrow) (turns.map Prod.snd)) := by
  have hblank : (blankFile.read 0).IsBlank := by
    intro b hb
    rw [show blankFile.read 0 = .replicate 536 0 by rfl, Contents.toBytes_replicate] at hb
    exact List.eq_of_mem_replicate hb
  have hfirst : Mirrors sideBySide blankFile 0 (fun _ => Ring.empty narrow) :=
    mirrors_iff.mpr ⟨by rfl, fun i _ => Ring.load_of_blank hblank i⟩
  have hmapped : ∀ a ∈ turns, a.1.inode = 0 := by simp [turns, taking]
  obtain ⟨hmirrors, hfaithful⟩ := stays_mirrored hfirst hmapped
  exact ⟨hfirst, hmapped, hmirrors, hfaithful (taking true) rfl⟩

end Region

end TraceRing
