import TraceRing.Proofs.Files.Whole
import TraceRing.Proofs.Region.Setups

/-!
# How setting up a region ends

Setting up a region is all or nothing (`Region.Settled`): it fails and leaves the tree as it was, or
it allocates the region as one new file of zeros where nothing was, or it attaches to a file of the
right size and touches nothing. The code of the failure says which call came to grief: E01 stands
for the creation or the sizing of the file (`Region.NotCreated`), E03 for a file of another size
(`Region.Mismatched`), and E02 for a file that is there and cannot be opened.
-/

namespace TraceRing

open Files (Contents Opened Tree Location Place)

/-! ## What is left of a new file -/

namespace Files.Tree

variable {t : Tree} {cwd : Location} {path : Bytes} {place : Place} {inode : Nat}

theorem read_addFile_of_ne (h : inode ≠ t.contents.size) (place : Place) :
    (t.addFile place).2.read inode = t.read inode := by
  have hpush : (t.contents.push .empty)[inode]? = t.contents[inode]? := by
    rw [Array.getElem?_push, if_neg h]
  simp only [addFile, addEntry, read, Array.getD_eq_getD_getElem?, hpush]

theorem toBytes_resize_empty (size : Nat) :
    (Contents.empty.resize size).toBytes = List.replicate size 0 := by
  cases size with
  | zero => rfl
  | succ size =>
    have hbeyond : ¬ size + 1 ≤ Contents.empty.size := Nat.not_succ_le_zero size
    rw [Contents.resize, if_neg hbeyond, Contents.toBytes_append, Contents.toBytes_empty,
      Contents.toBytes_replicate]
    rfl

/-- Removing a new file leaves the tree as it was before. -/
theorem Vacant.same_dropEntry (h : t.Vacant cwd path place) :
    t.Same ((t.addFile place).2.dropEntry place) where
  directories := directories_dropEntry_addFile (search_eq_none_iff.mp h.vacant).2
  read inode := by
    change (t.addFile place).2.read inode = t.read inode
    by_cases hinode : inode = t.contents.size
    · subst hinode
      rw [read_addFile_self]
      simp [read]
    · exact read_addFile_of_ne hinode place
  sizeLimit := rfl

theorem IsWhole.gains_addZeros (ht : t.IsWhole) (h : t.Vacant cwd path place) (size : Nat) :
    t.Gains (t.addZeros place size) place t.contents.size (List.replicate size 0) where
  vacant := (search_eq_none_iff.mp h.vacant).2
  fresh := ht.fresh
  size := by simp [addZeros, Tree.write, Tree.addFile, Tree.addEntry]
  entries directory := by
    have hentries := entries_addEntry { t with contents := t.contents.push .empty } place
      (.file t.contents.size) directory
    by_cases hdirectory : directory = place.directory
    · rw [if_pos ⟨hdirectory, hdirectory ▸ h.inside⟩] at hentries
      rw [if_pos hdirectory]
      exact hentries
    · rw [if_neg fun hboth => hdirectory hboth.1] at hentries
      rw [if_neg hdirectory]
      exact hentries
  bytes := by
    rw [addZeros, read_write_self (size_contents_addFile t place ▸ Nat.lt_succ_self _),
      toBytes_resize_empty]
  kept other hother := by
    rw [addZeros, read_write_of_ne (Ne.symm hother), read_addFile_of_ne hother]
  sizeLimit := rfl

end Files.Tree

namespace Region

variable {g : Geometry} {grid : Grid} {t u : Tree} {cwd : Location} {path : Bytes}

/-! ## Outcomes -/

/-- All or nothing: what a result for a region says about the tree before and the tree after. -/
structure Settled (g : Geometry) (grid : Grid) (t : Tree) (cwd : Location) (path : Bytes)
    (result : Except TransportFailure Region) (u : Tree) : Prop where
  failed : ∀ e, result = .error e → t.Same u
  allocated : ∀ r, result = .ok r → r.owner = true → r.path = path ∧ ∃ place,
    t.Vacant cwd path place ∧ u.HasFile cwd path place r.inode ∧
      t.Gains u place r.inode (List.replicate (size g grid) 0)
  attached : ∀ r, result = .ok r → r.owner = false → r.path = path ∧
    t.find cwd path = .ok (.file r.inode) ∧ (t.read r.inode).size = size g grid ∧ u = t

/-- Creating the file fails, and not because it exists, or the new file cannot be given its size. -/
def NotCreated (g : Geometry) (grid : Grid) (t : Tree) (cwd : Location) (path : Bytes)
    (e : IoError) : Prop :=
  (t.createNew cwd path = .error e ∧ e ≠ .system .alreadyExists) ∨
    ∃ inode u, t.createNew cwd path = .ok (inode, u) ∧ u.resize inode (size g grid) = .error e

/-- A file that exists is opened and has another size. -/
def Mismatched (g : Geometry) (grid : Grid) (t : Tree) (cwd : Location) (path : Bytes)
    (actual : Nat) : Prop :=
  ∃ opened, t.openExisting cwd path = .ok opened ∧ t.sizeOf opened = actual ∧
    actual ≠ size g grid

/-- What a result for a region says about the call that failed. Only those who create files can be
`blocked` from it. -/
structure Diagnosed (blocked : IoError → Prop) (g : Geometry) (grid : Grid) (t : Tree)
    (cwd : Location) (path : Bytes) (result : Except TransportFailure Region) : Prop where
  created : ∀ e, blocked e ↔ result = .error (.regionNotCreated path e)
  attached : ∀ e, result = .error (.regionNotAttached path e) → t.openExisting cwd path = .error e
  mismatched : ∀ actual, Mismatched g grid t cwd path actual ↔
    result = .error (.regionMismatch path (size g grid) actual)
  code : ∀ f, result = .error f →
    (f.code = "E01" ↔ ∃ e, blocked e) ∧
    (f.code = "E03" ↔ ∃ actual, Mismatched g grid t cwd path actual) ∧
    (f.code = "E02" ↔ ¬ (∃ e, blocked e) ∧ ¬ ∃ actual, Mismatched g grid t cwd path actual)

section Attaching

variable {blocked : IoError → Prop}

theorem Mismatched.eq {actual actual' : Nat} (h : Mismatched g grid t cwd path actual)
    (h' : Mismatched g grid t cwd path actual') : actual' = actual := by
  obtain ⟨opened, hopened, rfl, -⟩ := h
  obtain ⟨opened', hopened', rfl, -⟩ := h'
  cases hopened.symm.trans hopened'
  rfl

theorem attach_cases (g : Geometry) (grid : Grid) (t : Tree) (cwd : Location) (path : Bytes) :
    (∃ inode, attach g grid t cwd path = .ok ⟨path, inode, false⟩ ∧
        t.openExisting cwd path = .ok (.file inode) ∧ (t.read inode).size = size g grid) ∨
      (∃ actual, attach g grid t cwd path = .error (.regionMismatch path (size g grid) actual) ∧
        Mismatched g grid t cwd path actual) ∨
      ∃ e, attach g grid t cwd path = .error (.regionNotAttached path e) ∧
        t.openExisting cwd path = .error e := by
  cases hopen : t.openExisting cwd path with
  | error e => exact .inr (.inr ⟨e, by simp only [attach, hopen], rfl⟩)
  | ok opened =>
    by_cases hsize : t.sizeOf opened = size g grid
    · cases opened with
      | file inode =>
        refine .inl ⟨inode, ?_, rfl, hsize⟩
        simp only [attach, hopen, if_pos hsize]
      | device d =>
        -- a device has no size, and a region has one
        have hpos := size_pos g grid
        have hzero : 0 = size g grid := hsize
        omega
    · refine .inr (.inl ⟨t.sizeOf opened, ?_, opened, hopen, rfl, hsize⟩)
      simp only [attach, hopen, if_neg hsize]

namespace Diagnosed

theorem of_ok {r : Region} (hblocked : ∀ e, ¬ blocked e)
    (hmatches : ∀ actual, ¬ Mismatched g grid t cwd path actual) :
    Diagnosed blocked g grid t cwd path (.ok r) where
  created e := iff_of_false (hblocked e) nofun
  attached := nofun
  mismatched actual := iff_of_false (hmatches actual) nofun
  code := nofun

theorem of_mismatched {actual : Nat} (hblocked : ∀ e, ¬ blocked e)
    (h : Mismatched g grid t cwd path actual) :
    Diagnosed blocked g grid t cwd path (.error (.regionMismatch path (size g grid) actual)) where
  created e := iff_of_false (hblocked e) nofun
  attached := nofun
  mismatched actual' := by
    refine ⟨fun h' => by rw [h.eq h'], fun h' => ?_⟩
    cases h'
    exact h
  code f hf := by
    cases hf
    have hnone : ¬ ∃ e, blocked e := fun ⟨e, he⟩ => hblocked e he
    have hother : ∃ actual, Mismatched g grid t cwd path actual := ⟨actual, h⟩
    exact ⟨iff_of_false (by decide : "E03" ≠ "E01") hnone, iff_of_true rfl hother,
      iff_of_false (by decide : "E03" ≠ "E02") fun h' => h'.2 hother⟩

theorem of_openExisting {e : IoError} (hblocked : ∀ e, ¬ blocked e)
    (h : t.openExisting cwd path = .error e) :
    Diagnosed blocked g grid t cwd path (.error (.regionNotAttached path e)) := by
  have hnone : ¬ ∃ e, blocked e := fun ⟨e, he⟩ => hblocked e he
  have hmatches : ¬ ∃ actual, Mismatched g grid t cwd path actual := by
    rintro ⟨actual, opened, hopened, -⟩
    cases h.symm.trans hopened
  refine ⟨fun e => iff_of_false (hblocked e) nofun, fun e' he' => ?_,
    fun actual => iff_of_false (fun h' => hmatches ⟨actual, h'⟩) nofun, fun f hf => ?_⟩
  · cases he'
    exact h
  · cases hf
    exact ⟨iff_of_false (by decide : "E02" ≠ "E01") hnone,
      iff_of_false (by decide : "E02" ≠ "E03") hmatches, iff_of_true rfl ⟨hnone, hmatches⟩⟩

end Diagnosed

/-- Whoever is not blocked fails as `attach` does. -/
theorem diagnosed_attach (hblocked : ∀ e, ¬ blocked e) :
    Diagnosed blocked g grid t cwd path (attach g grid t cwd path) := by
  obtain ⟨inode, hresult, hopen, hsize⟩ | ⟨actual, hresult, hmismatched⟩ | ⟨e, hresult, hopen⟩ :=
    attach_cases g grid t cwd path
  · rw [hresult]
    refine .of_ok hblocked ?_
    rintro actual ⟨opened, hopened, rfl, hne⟩
    cases hopen.symm.trans hopened
    exact hne hsize
  · rw [hresult]
    exact .of_mismatched hblocked hmismatched
  · rw [hresult]
    exact .of_openExisting hblocked hopen

theorem Settled.of_error {f : TransportFailure} (h : t.Same u) :
    Settled g grid t cwd path (.error f) u where
  failed _ _ := h
  allocated _ hr _ := by cases hr
  attached _ hr _ := by cases hr

/-- Attaching changes nothing. -/
theorem settled_attach : Settled g grid t cwd path (attach g grid t cwd path) t where
  failed _ _ := .refl t
  allocated r hr howner := by
    obtain ⟨inode, -, -, rfl⟩ := attach_eq_ok_iff.mp hr
    cases howner
  attached r hr _ := by
    obtain ⟨inode, hfind, hsize, rfl⟩ := attach_eq_ok_iff.mp hr
    exact ⟨rfl, hfind, hsize, rfl⟩

end Attaching

/-! ## Setting up -/

theorem NotCreated.eq {e e' : IoError} (h : NotCreated g grid t cwd path e)
    (h' : NotCreated g grid t cwd path e') : e' = e := by
  rcases h with ⟨hcreate, -⟩ | ⟨inode, u, hcreate, hresize⟩ <;>
    rcases h' with ⟨hcreate', -⟩ | ⟨inode', u', hcreate', hresize'⟩ <;>
    cases hcreate.symm.trans hcreate'
  · rfl
  · exact (Except.error.inj (hresize.symm.trans hresize')).symm

/-- Where a file can be opened it exists, and nothing else is in the way of creating it. -/
theorem NotCreated.not_mismatched {e : IoError} (h : NotCreated g grid t cwd path e) :
    ¬ ∃ actual, Mismatched g grid t cwd path actual := by
  rintro ⟨actual, opened, hopened, -⟩
  have hexists := Tree.createNew_of_openExisting hopened
  rcases h with ⟨hcreate, hne⟩ | ⟨inode, u, hcreate, -⟩
  · exact hne (Except.error.inj (hcreate.symm.trans hexists))
  · cases hcreate.symm.trans hexists

theorem NotCreated.diagnosed {e : IoError} (h : NotCreated g grid t cwd path e) :
    Diagnosed (NotCreated g grid t cwd path) g grid t cwd path
      (.error (.regionNotCreated path e)) := by
  have hmatches := h.not_mismatched
  refine ⟨fun e' => ⟨fun h' => by rw [h.eq h'], fun h' => ?_⟩, nofun,
    fun actual => iff_of_false (fun h' => hmatches ⟨actual, h'⟩) nofun, fun f hf => ?_⟩
  · cases h'
    exact h
  · cases hf
    exact ⟨iff_of_true rfl ⟨e, h⟩, iff_of_false (by decide : "E01" ≠ "E03") hmatches,
      iff_of_false (by decide : "E01" ≠ "E02") fun h' => h'.1 ⟨e, h⟩⟩

/-- An owner has made the file. -/
theorem settled_of_vacant {place : Place} (ht : t.IsWhole) (hvacant : t.Vacant cwd path place) :
    Settled g grid t cwd path (.ok ⟨path, t.contents.size, true⟩)
      (t.addZeros place (size g grid)) where
  failed _ he := by cases he
  allocated r hr _ := by
    cases hr
    exact ⟨rfl, place, hvacant, hvacant.addZeros _, ht.gains_addZeros hvacant _⟩
  attached r hr howner := by
    cases hr
    cases howner

/-- Nothing is in the way of an owner. -/
theorem diagnosed_of_vacant {place : Place} (hvacant : t.Vacant cwd path place)
    (hlimit : size g grid ≤ t.growthLimit) :
    Diagnosed (NotCreated g grid t cwd path) g grid t cwd path
      (.ok ⟨path, t.contents.size, true⟩) := by
  refine .of_ok ?_ ?_
  · rintro e (⟨hcreate, -⟩ | ⟨inode, u, hcreate, hresize⟩)
    · cases hvacant.createNew.symm.trans hcreate
    · cases hvacant.createNew.symm.trans hcreate
      have hsized := (Tree.resize_addFile (size_pos g grid) place).trans (if_pos hlimit)
      cases hsized.symm.trans hresize
  · rintro actual ⟨opened, hopened, -⟩
    cases hvacant.createNew.symm.trans (Tree.createNew_of_openExisting hopened)

/-- Setting up a region is all or nothing, and so is attaching to one. A failure leaves the tree as
it was; an owner has made one new file of zeros, of the size of the region, at a path where nothing
was; and whoever is no owner has found a file of that size at the end of the path and changed
nothing. The code of the failure tells which call failed. The tree is whole afterwards. -/
theorem setUp_settled (ht : t.IsWhole) (g : Geometry) (grid : Grid) (cwd : Location)
    (path : Bytes) :
    let s := setUp g grid t cwd path
    let result := attach g grid t cwd path
    (Settled g grid t cwd path s.result s.tree ∧
      Diagnosed (NotCreated g grid t cwd path) g grid t cwd path s.result ∧ s.tree.IsWhole) ∧
    Settled g grid t cwd path result t ∧
      Diagnosed (fun _ => False) g grid t cwd path result := by
  intro s result
  refine ⟨?_, settled_attach, diagnosed_attach fun _ => id⟩
  cases hcreate : t.createNew cwd path with
  | ok created =>
    obtain ⟨place, hvacant, -⟩ := ht.isClosed.vacant hcreate
    have hsetUp : s = _ := setUp_of_vacant g grid hvacant
    by_cases hlimit : size g grid ≤ t.growthLimit
    · rw [if_pos hlimit] at hsetUp
      rw [hsetUp]
      exact ⟨settled_of_vacant ht hvacant, diagnosed_of_vacant hvacant hlimit,
        (ht.addFile place).write _ _⟩
    · rw [if_neg hlimit] at hsetUp
      rw [hsetUp]
      have hblocked : NotCreated g grid t cwd path (.system .fileTooLarge) := by
        refine .inr ⟨_, _, hvacant.createNew, ?_⟩
        exact (Tree.resize_addFile (size_pos g grid) place).trans (if_neg hlimit)
      exact ⟨.of_error hvacant.same_dropEntry, hblocked.diagnosed,
        (ht.addFile place).dropEntry place⟩
  | error e =>
    by_cases hexists : e = .system .alreadyExists
    · subst hexists
      have hsetUp : s = _ := setUp_of_exists hcreate
      rw [hsetUp]
      refine ⟨settled_attach, diagnosed_attach ?_, ht⟩
      rintro e (⟨hcreate', hne⟩ | ⟨inode, u, hcreate', -⟩)
      · exact hne (Except.error.inj (hcreate'.symm.trans hcreate))
      · cases hcreate'.symm.trans hcreate
    · have hsetUp : s = ⟨.error (.regionNotCreated path e), t, []⟩ := by
        simp only [s, setUp, hcreate]
      rw [hsetUp]
      have hblocked : NotCreated g grid t cwd path e := .inl ⟨hcreate, hexists⟩
      exact ⟨.of_error (.refl t), hblocked.diagnosed, ht⟩

/-- In an empty tree a region of 5248 bytes is allocated. Where no file may grow beyond 4096 bytes
it is not, and no file is left. -/
theorem setUp_settled_of_limit :
    let limited : Tree := { Tree.empty with sizeLimit := some 4096 }
    Tree.empty.IsWhole ∧ limited.IsWhole ∧
      (∃ place, Tree.empty.Gains (setUp quads fourByFour Tree.empty [] regionName).tree place 0
        (List.replicate (size quads fourByFour) 0)) ∧
      (setUp quads fourByFour limited [] regionName).result =
        .error (.regionNotCreated regionName (.system .fileTooLarge)) ∧
      limited.Same (setUp quads fourByFour limited [] regionName).tree := by
  intro limited
  have hwhole : limited.IsWhole := (Tree.Made.empty.limited (some 4096)).isWhole
  have hvacant : limited.Vacant [] regionName ⟨0, Bytes.ofText "region"⟩ :=
    Tree.vacant_empty.congr rfl
  have hblocked : NotCreated quads fourByFour limited [] regionName (.system .fileTooLarge) := by
    refine .inr ⟨_, _, hvacant.createNew, ?_⟩
    exact (Tree.resize_addFile (size_pos quads fourByFour) _).trans (if_neg (by decide +kernel))
  obtain ⟨⟨hmade, -⟩, -⟩ := setUp_settled Tree.isWhole_empty quads fourByFour [] regionName
  obtain ⟨⟨hfailed, hdiagnosed, -⟩, -⟩ := setUp_settled hwhole quads fourByFour [] regionName
  obtain ⟨-, place, -, -, hgains⟩ := hmade.allocated _ setUp_empty rfl
  have hresult := (hdiagnosed.created _).mp hblocked
  exact ⟨Tree.isWhole_empty, hwhole, ⟨place, hgains⟩, hresult, hfailed.failed _ hresult⟩

end Region

end TraceRing
