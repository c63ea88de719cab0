import TraceRing.Proofs.Files.Walks

/-!
# Whole trees

A tree is whole if its entries stand for directories and files that are there. The empty tree is
whole, and nothing that is done to a tree changes that (`Made.isWhole`). The number of a new file is
then one that no entry has.

Two trees are `Same` if neither a path nor a file shows a difference. They need not be equal: the
contents of a file stay behind when its name is removed. `Gains` is the difference that one new
file makes.
-/

namespace TraceRing.Files.Tree

variable {t u : Tree} {cwd : Location} {path : Bytes} {place : Place} {n : Node} {inode : Nat}

/-! ## Entries that stand for something -/

/-- What a node stands for is there. -/
def Stands (t : Tree) : Node → Prop
  | .directory number => number < t.directories.size
  | .file inode => inode < t.contents.size
  | .link _ => True
  | .device _ => True

/-- The root is there, and whatever an entry stands for. -/
structure IsWhole (t : Tree) : Prop where
  root : 0 < t.directories.size
  stands : ∀ place n, t.node? place = some n → t.Stands n

theorem Stands.mono (h : t.Stands n) (hdirectories : t.directories.size ≤ u.directories.size)
    (hcontents : t.contents.size ≤ u.contents.size) : u.Stands n := by
  cases n with
  | directory number => exact Nat.lt_of_lt_of_le h hdirectories
  | file inode => exact Nat.lt_of_lt_of_le h hcontents
  | link target => trivial
  | device d => trivial

theorem node?_addEntry {m : Node} {other : Place} (h : (t.addEntry place n).node? other = some m) :
    t.node? other = some m ∨ m = n := by
  rw [node?] at h ⊢
  rw [entries_addEntry] at h
  split at h
  · rw [List.lookup_append] at h
    cases hold : (t.entries other.directory).lookup other.name with
    | some old =>
      rw [hold] at h
      exact .inl h
    | none =>
      rw [hold, Option.none_or, List.lookup_cons] at h
      split at h
      · exact .inr (Option.some.inj h).symm
      · cases h
  · exact .inl h

namespace IsWhole

theorem isClosed (h : t.IsWhole) : t.IsClosed :=
  ⟨h.root, fun place number => h.stands place (.directory number)⟩

/-- No entry has the number that a new file gets. -/
theorem fresh (h : t.IsWhole) (place : Place) : t.node? place ≠ some (.file t.contents.size) :=
  fun hnode => Nat.lt_irrefl _ (h.stands place _ hnode)

theorem of_within (h : t.IsWhole) (hwithin : u.Within t)
    (hdirectories : t.directories.size ≤ u.directories.size)
    (hcontents : t.contents.size ≤ u.contents.size) : u.IsWhole where
  root := Nat.lt_of_lt_of_le h.root hdirectories
  stands place n hn := (h.stands place n (hwithin place n hn)).mono hdirectories hcontents

theorem addEntry (h : t.IsWhole) (place : Place) (hn : t.Stands n) :
    (t.addEntry place n).IsWhole where
  root := by simpa [Tree.addEntry] using h.root
  stands other m hm := by
    have hstands : t.Stands m := by
      rcases node?_addEntry hm with hold | rfl
      · exact h.stands other m hold
      · exact hn
    exact hstands.mono (by simp [Tree.addEntry]) (by simp [Tree.addEntry])

theorem addFile (h : t.IsWhole) (place : Place) : (t.addFile place).2.IsWhole := by
  have hroom : IsWhole { t with contents := t.contents.push .empty } :=
    h.of_within (within_of_directories rfl) (Nat.le_refl _) (by simp)
  exact hroom.addEntry place (by simp [Stands])

theorem addDirectory (h : t.IsWhole) (place : Place) : (t.addDirectory place).IsWhole := by
  have hroom : IsWhole { t with directories := t.directories.push [] } := by
    refine h.of_within (fun other m hm => ?_) (by simp) (Nat.le_refl _)
    rwa [node?_push] at hm
  exact hroom.addEntry place (by simp [Stands])

theorem dropEntry (h : t.IsWhole) (place : Place) : (t.dropEntry place).IsWhole :=
  h.of_within (within_dropEntry t place) (by simp [Tree.dropEntry]) (Nat.le_refl _)

theorem write (h : t.IsWhole) (inode : Nat) (c : Contents) : (t.write inode c).IsWhole :=
  h.of_within (within_of_directories rfl) (Nat.le_refl _) (by simp)

end IsWhole

theorem isWhole_empty : empty.IsWhole where
  root := by decide
  stands place n hn := by
    have hlt := lt_of_node? hn
    obtain ⟨directory, name⟩ := place
    obtain rfl : directory = 0 := by simpa [empty] using hlt
    cases hn

/-! ## Trees that are made -/

/-- What can be made of the empty tree, one change after the other. -/
inductive Made : Tree → Prop where
  | empty : Made .empty
  | file {t : Tree} (h : Made t) (place : Place) : Made (t.addFile place).2
  | directory {t : Tree} (h : Made t) (place : Place) : Made (t.addDirectory place)
  | link {t : Tree} (h : Made t) (place : Place) (target : Bytes) :
      Made (t.addEntry place (.link target))
  | device {t : Tree} (h : Made t) (place : Place) (d : Device) :
      Made (t.addEntry place (.device d))
  | dropped {t : Tree} (h : Made t) (place : Place) : Made (t.dropEntry place)
  | written {t : Tree} (h : Made t) (inode : Nat) (c : Contents) : Made (t.write inode c)
  | limited {t : Tree} (h : Made t) (limit : Option Nat) : Made { t with sizeLimit := limit }

namespace Made

theorem isWhole (h : t.Made) : t.IsWhole := by
  induction h with
  | empty => exact isWhole_empty
  | file _ place ih => exact ih.addFile place
  | directory _ place ih => exact ih.addDirectory place
  | link _ place target ih => exact ih.addEntry place trivial
  | device _ place d ih => exact ih.addEntry place trivial
  | dropped _ place ih => exact ih.dropEntry place
  | written _ inode c ih => exact ih.write inode c
  | limited _ limit ih => exact ⟨ih.root, ih.stands⟩

end Made

/-! ## Comparing trees -/

/-- No path and no file shows a difference. -/
structure Same (t u : Tree) : Prop where
  directories : u.directories = t.directories
  read : ∀ inode, u.read inode = t.read inode
  sizeLimit : u.sizeLimit = t.sizeLimit

theorem Same.refl (t : Tree) : t.Same t :=
  ⟨rfl, fun _ => rfl, rfl⟩

/-- One more file than before, at a place where nothing was. -/
structure Gains (t u : Tree) (place : Place) (inode : Nat) (bytes : Bytes) : Prop where
  vacant : t.node? place = none
  fresh : ∀ other, t.node? other ≠ some (.file inode)
  size : u.directories.size = t.directories.size
  entries : ∀ directory, u.entries directory =
    if directory = place.directory then t.entries directory ++ [(place.name, .file inode)]
    else t.entries directory
  bytes : (u.read inode).toBytes = bytes
  kept : ∀ other, other ≠ inode → u.read other = t.read other
  sizeLimit : u.sizeLimit = t.sizeLimit

end TraceRing.Files.Tree
