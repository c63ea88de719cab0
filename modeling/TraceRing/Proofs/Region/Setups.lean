import TraceRing.Proofs.Files.Walks
import TraceRing.Proofs.Region.Accesses

/-!
# Setting up regions

Setting up a region makes a file of zeros at a place that was vacant, or it attaches to the file
that is there and leaves all files as they are (`Region.setUp_cases`); if it fails, no file that
was there before is touched (`Region.setUp_error`). To attach, only the size of the file is
compared. Geometries whose packets take the same room, or so little that padding evens it out, have
regions of one size and are not told apart (`Region.attach_allocated`).
-/

namespace TraceRing

open Files (Contents Tree Location Place)

/-! ## New files -/

namespace Files.Tree

variable {t u : Tree} {cwd : Location} {path : Bytes} {place : Place} {inode size : Nat}

/-- The files with a new one of zeros at a place where nothing is. -/
def addZeros (t : Tree) (place : Place) (size : Nat) : Tree :=
  (t.addFile place).2.write t.contents.size (Contents.empty.resize size)

theorem read_addFile_self (t : Tree) (place : Place) :
    (t.addFile place).2.read t.contents.size = .empty := by
  simp [addFile, addEntry, read]

theorem size_contents_addFile (t : Tree) (place : Place) :
    (t.addFile place).2.contents.size = t.contents.size + 1 := by
  simp [addFile, addEntry]

theorem size_addZeros (t : Tree) (place : Place) (size : Nat) :
    ((t.addZeros place size).read t.contents.size).size = size := by
  rw [addZeros, read_write_self (size_contents_addFile t place ▸ Nat.lt_succ_self _),
    Contents.size_resize]

theorem read_addZeros_of_lt (h : inode < t.contents.size) (place : Place) (size : Nat) :
    (t.addZeros place size).read inode = t.read inode := by
  rw [addZeros, read_write_of_ne (Nat.ne_of_gt h), (addFile_of_lt h place).2.2]

theorem growthLimit_congr (h : u.sizeLimit = t.sizeLimit) : u.growthLimit = t.growthLimit := by
  rw [growthLimit, growthLimit, h]

/-- A new file takes its size if the limit allows it. -/
theorem resize_addFile (hpos : 0 < size) (place : Place) :
    (t.addFile place).2.resize t.contents.size size =
      if size ≤ t.growthLimit then .ok (t.addZeros place size)
      else .error (.system .fileTooLarge) := by
  have hlimit : (t.addFile place).2.growthLimit = t.growthLimit := rfl
  have hempty : ¬ size ≤ Contents.empty.size := Nat.not_le.mpr hpos
  simp only [resize, read_addFile_self, hlimit, hempty, false_or]
  rfl

theorem Vacant.addZeros (h : t.Vacant cwd path place) (size : Nat) :
    (t.addZeros place size).HasFile cwd path place t.contents.size :=
  h.addFile.mono (within_of_directories rfl)

/-- A file is created at a place that was vacant. -/
theorem IsClosed.vacant (ht : t.IsClosed) (h : t.createNew cwd path = .ok (inode, u)) :
    ∃ place, t.Vacant cwd path place ∧ t.addFile place = (inode, u) := by
  simp only [createNew] at h
  repeat' split at h
  all_goals cases h
  next hlocate _ hsearch => exact ⟨_, ⟨hlocate, hsearch, ht.locate hlocate⟩, rfl⟩

end Files.Tree

namespace Region

variable {g : Geometry} {grid : Grid} {t : Tree} {cwd : Location} {path : Bytes} {place : Place}
  {inode : Nat} {r : Region}

/-! ## The outcomes -/

theorem attach_of_find (h : t.find cwd path = .ok (.file inode)) :
    attach g grid t cwd path =
      if (t.read inode).size = size g grid then .ok ⟨path, inode, false⟩
      else .error (.regionMismatch path (size g grid) (t.read inode).size) := by
  simp only [attach, Tree.openExisting, h, Tree.sizeOf]
  rfl

/-- Only a file that is there and has the size of the region is attached to. -/
theorem attach_eq_ok_iff : attach g grid t cwd path = .ok r ↔
    ∃ inode, t.find cwd path = .ok (.file inode) ∧ (t.read inode).size = size g grid ∧
      r = ⟨path, inode, false⟩ := by
  constructor
  · intro h
    simp only [attach, Tree.openExisting] at h
    repeat' split at h
    all_goals cases h
    next inode hopened hsize =>
      split at hopened
      all_goals cases hopened
      next hfind => exact ⟨inode, hfind, hsize, rfl⟩
  · rintro ⟨inode, hfind, hsize, rfl⟩
    rw [attach_of_find hfind, if_pos hsize]

theorem setUp_of_exists (h : t.createNew cwd path = .error (.system .alreadyExists)) :
    setUp g grid t cwd path = ⟨attach g grid t cwd path, t, [.attachingRegion path]⟩ := by
  simp only [setUp, h]

/-- At a vacant place the region is allocated, unless its file may not grow that large: then it is
removed again. -/
theorem setUp_of_vacant (g : Geometry) (grid : Grid) (h : t.Vacant cwd path place) :
    setUp g grid t cwd path =
      if size g grid ≤ t.growthLimit then
        ⟨.ok ⟨path, t.contents.size, true⟩, t.addZeros place (size g grid),
          [.allocatingRegion (size g grid) path]⟩
      else
        ⟨.error (.regionNotCreated path (.system .fileTooLarge)),
          (t.addFile place).2.dropEntry place, [.allocatingRegion (size g grid) path]⟩ := by
  have hnumber : (t.addFile place).1 = t.contents.size := rfl
  simp only [setUp, h.createNew, hnumber, Tree.resize_addFile (size_pos g grid)]
  by_cases hlimit : size g grid ≤ t.growthLimit
  · simp only [if_pos hlimit]
  · simp only [if_neg hlimit, h.addFile.remove]

/-- A region that was set up was allocated at a vacant place, or attached to. -/
theorem setUp_cases (ht : t.IsClosed) (h : (setUp g grid t cwd path).result = .ok r) :
    (∃ place, t.Vacant cwd path place ∧ r = ⟨path, t.contents.size, true⟩ ∧
        (setUp g grid t cwd path).tree = t.addZeros place (size g grid)) ∨
      (∃ inode, t.find cwd path = .ok (.file inode) ∧ (t.read inode).size = size g grid ∧
        r = ⟨path, inode, false⟩ ∧ (setUp g grid t cwd path).tree = t) := by
  cases hcreate : t.createNew cwd path with
  | ok created =>
    obtain ⟨place, hvacant, -⟩ := ht.vacant hcreate
    have hsetup := setUp_of_vacant g grid hvacant
    by_cases hlimit : size g grid ≤ t.growthLimit
    · rw [if_pos hlimit] at hsetup
      rw [hsetup] at h ⊢
      cases h
      exact .inl ⟨place, hvacant, rfl, rfl⟩
    · rw [if_neg hlimit] at hsetup
      rw [hsetup] at h
      cases h
  | error e =>
    by_cases hexists : e = .system .alreadyExists
    · subst hexists
      rw [setUp_of_exists hcreate] at h ⊢
      obtain ⟨inode, hfind, hsize, hr⟩ := attach_eq_ok_iff.mp h
      exact .inr ⟨inode, hfind, hsize, hr, rfl⟩
    · simp only [setUp, hcreate] at h
      cases h

/-- Where no region was set up, no name was changed and no file that was there. -/
theorem setUp_error (ht : t.IsClosed) {e : TransportFailure}
    (h : (setUp g grid t cwd path).result = .error e) :
    (setUp g grid t cwd path).tree.directories = t.directories ∧
      ∀ inode < t.contents.size, (setUp g grid t cwd path).tree.read inode = t.read inode := by
  cases hcreate : t.createNew cwd path with
  | ok created =>
    obtain ⟨place, hvacant, -⟩ := ht.vacant hcreate
    have hsetup := setUp_of_vacant g grid hvacant
    by_cases hlimit : size g grid ≤ t.growthLimit
    · rw [if_pos hlimit] at hsetup
      rw [hsetup] at h
      cases h
    · rw [if_neg hlimit] at hsetup
      rw [hsetup]
      obtain ⟨-, hnode⟩ := Tree.search_eq_none_iff.mp hvacant.vacant
      exact ⟨Tree.directories_dropEntry_addFile hnode,
        fun inode hinode => (Tree.addFile_of_lt hinode place).2.2⟩
  | error e =>
    have hsame : (setUp g grid t cwd path).tree = t := by
      simp only [setUp, hcreate]
      split
      · rfl
      · rfl
      · next heq => cases heq
    rw [hsame]
    exact ⟨rfl, fun _ _ => rfl⟩

/-! ## Layouts -/

/-- The packets of two geometries take the same room in a ring, or the padding makes up for the
difference. -/
def Alike (g₁ g₂ : Geometry) : Prop :=
  g₁.slots * g₁.packetSize = g₂.slots * g₂.packetSize ∨
    g₁.slots * g₁.packetSize ≤ 4 ∧ g₂.slots * g₂.packetSize ≤ 4

instance (g₁ g₂ : Geometry) : Decidable (Alike g₁ g₂) :=
  inferInstanceAs (Decidable (_ ∨ _ ∧ _))

/-- The room for packets is one byte, or two, or a number of whole words. -/
theorem room_cases (g : Geometry) : g.slots * g.packetSize = 1 ∨ g.slots * g.packetSize = 2 ∨
    ∃ words, 0 < words ∧ g.slots * g.packetSize = 4 * words := by
  rw [Geometry.slots, Geometry.packetSize, ← Nat.pow_add]
  rcases g.slotBits + g.packetBits with _ | _ | n
  · exact .inl rfl
  · exact .inr (.inl rfl)
  · exact .inr (.inr ⟨2 ^ n, Nat.two_pow_pos n, by rw [Nat.pow_succ, Nat.pow_succ]; omega⟩)

theorem size_eq_iff (g₁ g₂ : Geometry) (grid : Grid) :
    size g₁ grid = size g₂ grid ↔ Alike g₁ g₂ := by
  rw [size, size, Ring.regionSize, Ring.regionSize, Nat.mul_right_cancel_iff grid.count_pos,
    Ring.imageSize, Ring.imageSize, Ring.bodySize, Ring.bodySize, textAreaSize, Alike]
  generalize hroom₁ : g₁.slots * g₁.packetSize = room₁
  generalize hroom₂ : g₂.slots * g₂.packetSize = room₂
  have hcases₁ := hroom₁ ▸ room_cases g₁
  have hcases₂ := hroom₂ ▸ room_cases g₂
  rcases hcases₁ with rfl | rfl | ⟨words₁, hpos₁, rfl⟩ <;>
    rcases hcases₂ with rfl | rfl | ⟨words₂, hpos₂, rfl⟩ <;>
    omega

/-- Who comes to an allocated region with a geometry of another size is refused, and who comes with
one of the same size attaches, whether the layouts agree or not. Nothing is changed either way, and
whoever would set the region up finds the same. -/
theorem attach_allocated (ht : t.IsClosed) {g₁ : Geometry}
    (hallocated : (setUp g₁ grid t cwd path).result = .ok ⟨path, inode, true⟩)
    {accesses : List (Region × Access g₁)} (hmapped : ∀ a ∈ accesses, a.1.inode = inode)
    (g₂ : Geometry) :
    let now := accessAll grid (setUp g₁ grid t cwd path).tree accesses
    let answer := if Alike g₁ g₂ then .ok ⟨path, inode, false⟩
      else .error (.regionMismatch path (size g₂ grid) (size g₁ grid))
    attach g₂ grid now cwd path = answer ∧
      setUp g₂ grid now cwd path = ⟨answer, now, [.attachingRegion path]⟩ := by
  intro now answer
  obtain ⟨place, hvacant, hr, htree⟩ | ⟨other, -, -, hr, -⟩ := setUp_cases ht hallocated
  · cases hr
    have hsize := Tree.size_addZeros t place (size g₁ grid)
    have hnow : now = accessAll grid (t.addZeros place (size g₁ grid)) accesses := by rw [← htree]
    have hkept := accessAll_frame hsize hmapped
    rw [← hnow] at hkept
    have hfile : now.HasFile cwd path place t.contents.size :=
      (hvacant.addZeros _).mono (Tree.within_of_directories hkept.1)
    have hsize' : (now.read t.contents.size).size = size g₁ grid := (hkept.2 _).trans hsize
    have hattach : attach g₂ grid now cwd path = answer := by
      rw [attach_of_find hfile.find, hsize']
      simp only [answer, size_eq_iff]
    rw [setUp_of_exists hfile.createNew, hattach]
    exact ⟨rfl, rfl⟩
  · cases hr

/-- Four slots of 16 bytes. -/
def quads : Geometry :=
  ⟨2, 4, by decide⟩

/-- Two slots of 32 bytes, which take the same room. -/
def pairs : Geometry :=
  ⟨1, 5, by decide⟩

/-- Two slots of 64 bytes. -/
def widePairs : Geometry :=
  ⟨1, 6, by decide⟩

def fourByFour : Grid :=
  { rows := 4, cols := 4 }

def regionName : Bytes :=
  Bytes.ofText "/region"

theorem setUp_empty : (setUp quads fourByFour Tree.empty [] regionName).result =
    .ok ⟨regionName, 0, true⟩ := by
  rw [regionName, setUp_of_vacant _ _ Tree.vacant_empty, if_pos (by decide +kernel)]
  rfl

theorem attach_allocated_of_widePairs :
    let handle : Region := ⟨regionName, 0, true⟩
    let pushed := accessAll fourByFour (setUp quads fourByFour Tree.empty [] regionName).tree
      [(handle, .ring ⟨0, 1⟩ (.push (Packet.zero quads)))]
    Tree.empty.IsClosed ∧
      (setUp quads fourByFour Tree.empty [] regionName).result = .ok handle ∧
      attach widePairs fourByFour pushed [] regionName =
        .error (.regionMismatch regionName 6272 5248) ∧
      (setUp widePairs fourByFour pushed [] regionName).tree = pushed := by
  intro handle pushed
  obtain ⟨hattach, hsetup⟩ := attach_allocated Tree.isClosed_empty setUp_empty
    (List.forall_mem_singleton.mpr rfl :
      ∀ a ∈ [(handle, Access.ring ⟨0, 1⟩ (.push (Packet.zero quads)))], a.1.inode = 0) widePairs
  refine ⟨Tree.isClosed_empty, setUp_empty, hattach, ?_⟩
  rw [hsetup]

/-- Two geometries that are not the same have regions of one size, and whoever has one attaches to
what the other allocated. -/
theorem attach_other_layout :
    let allocated := setUp quads fourByFour Tree.empty [] regionName
    quads ≠ pairs ∧ allocated.result = .ok ⟨regionName, 0, true⟩ ∧
      attach pairs fourByFour allocated.tree [] regionName = .ok ⟨regionName, 0, false⟩ := by
  intro allocated
  have htree : allocated.tree =
      Tree.empty.addZeros ⟨0, Bytes.ofText "region"⟩ (size quads fourByFour) := by
    simp only [allocated, regionName, setUp_of_vacant _ _ Tree.vacant_empty]
    rw [if_pos (by decide +kernel)]
  have hfile := Tree.vacant_empty.addZeros (size quads fourByFour)
  have hsize := Tree.size_addZeros Tree.empty ⟨0, Bytes.ofText "region"⟩ (size quads fourByFour)
  have hsame : size quads fourByFour = size pairs fourByFour :=
    (size_eq_iff quads pairs fourByFour).mpr (by decide +kernel)
  refine ⟨by decide, setUp_empty, ?_⟩
  rw [htree, regionName, attach_of_find hfile.find, hsize, if_pos hsame]
  rfl

end Region

end TraceRing
