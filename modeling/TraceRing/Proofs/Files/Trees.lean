import TraceRing.Files.Calls

/-!
# Calls on a file tree

What the calls leave of the files, which are known by their numbers: removing names and making
directories changes no contents, and creating a file changes at most the one it opens. A path of
plain names is followed from directory to directory.
-/

namespace TraceRing.Files.Tree

variable {t : Tree} {inode : Nat}

/-! ## Contents -/

theorem lt_of_size_pos (h : 0 < (t.read inode).size) : inode < t.contents.size := by
  rcases Nat.lt_or_ge inode t.contents.size with hlt | hge
  · exact hlt
  · simp [read, Array.getD, Nat.not_lt.mpr hge, Contents.size, Contents.empty] at h

@[simp] theorem size_contents_write (t : Tree) (inode : Nat) (c : Contents) :
    (t.write inode c).contents.size = t.contents.size := by
  simp [write]

theorem read_write_self (h : inode < t.contents.size) (c : Contents) :
    (t.write inode c).read inode = c := by
  simp [write, read, h]

theorem read_write_of_ne {other : Nat} (h : other ≠ inode) (c : Contents) :
    (t.write other c).read inode = t.read inode := by
  simp [write, read, Array.getD_eq_getD_getElem?, h]

/-- The number of a new file was free. -/
theorem addFile_of_lt (h : inode < t.contents.size) (place : Place) :
    (t.addFile place).1 ≠ inode ∧ inode < (t.addFile place).2.contents.size ∧
      (t.addFile place).2.read inode = t.read inode := by
  refine ⟨Nat.ne_of_gt h, ?_, ?_⟩
  · simp only [addFile, addEntry, Array.size_push]
    omega
  · simp [addFile, addEntry, read, Array.getD_eq_getD_getElem?, Array.getElem?_push_lt h, h]

/-! ## Calls -/

theorem lt_of_createNew {cwd : Location} {path : Bytes} {t' : Tree}
    (h : t.createNew cwd path = .ok (inode, t')) : inode < t'.contents.size := by
  simp only [createNew] at h
  repeat' split at h
  all_goals cases h
  simp [addEntry]

theorem contents_remove {cwd : Location} {path : Bytes} {t' : Tree}
    (h : t.remove cwd path = .ok t') : t'.contents = t.contents := by
  simp only [remove] at h
  repeat' split at h
  all_goals cases h
  rfl

theorem contents_makeDirectory {cwd : Location} {path : Bytes} {t' : Tree}
    (h : t.makeDirectory cwd path = .ok t') : t'.contents = t.contents := by
  simp only [makeDirectory] at h
  repeat' split at h
  all_goals cases h
  rfl

theorem contents_ensureDirectory (t : Tree) (cwd : Location) (path : Bytes) :
    (t.ensureDirectory cwd path).2.contents = t.contents := by
  simp only [ensureDirectory]
  split
  · next made => exact contents_makeDirectory made
  · split <;> rfl

theorem contents_makeDirectories (cwd : Location) (above : List Bytes) (t : Tree) (path : Bytes) :
    (makeDirectories cwd above t path).2.contents = t.contents := by
  fun_induction makeDirectories cwd above t path with
  | case1 => rfl
  | case2 t path => exact contents_ensureDirectory ..
  | case3 parent above t path hne hmissing e t' hfailed ih => rw [← ih, hfailed]
  | case4 parent above t path hne hmissing t' hmade ih =>
    rw [contents_ensureDirectory, ← ih, hmade]
  | case5 => exact contents_ensureDirectory ..

/-- Creating a file changes no file but the one it opens, which is empty then. -/
theorem read_create {cwd : Location} {path : Bytes} {opened : Opened} {t' : Tree}
    (h : t.create cwd path = .ok (opened, t')) (hinode : inode < t.contents.size) :
    inode < t'.contents.size ∧
      ((opened ≠ .file inode ∧ t'.read inode = t.read inode) ∨ t'.read inode = .empty) := by
  simp only [create] at h
  repeat' split at h
  all_goals cases h
  · obtain ⟨hne, hlt, hread⟩ := addFile_of_lt hinode _
    exact ⟨hlt, .inl ⟨fun heq => hne (Opened.file.inj heq), hread⟩⟩
  · next other _ =>
    refine ⟨by simpa using hinode, ?_⟩
    by_cases heq : other = inode
    · subst heq
      exact .inr (read_write_self hinode _)
    · exact .inl ⟨fun hopened => heq (Opened.file.inj hopened), read_write_of_ne heq _⟩
  · exact ⟨hinode, .inl ⟨nofun, rfl⟩⟩

/-! ## Paths -/

/-- A name that can stand for an entry. -/
structure IsPlain (name : Name) : Prop where
  ne_dot : name ≠ dot
  ne_dotDot : name ≠ dotDot
  length_le : name.length ≤ nameLimit

instance (name : Name) : Decidable (IsPlain name) :=
  decidable_of_iff (name ≠ dot ∧ name ≠ dotDot ∧ name.length ≤ nameLimit)
    ⟨fun ⟨hdot, hdotDot, hlength⟩ => ⟨hdot, hdotDot, hlength⟩,
      fun h => ⟨h.ne_dot, h.ne_dotDot, h.length_le⟩⟩

variable {following : Following} {links : Nat} {here way : Way} {slash : Bool} {name : Name}

theorem walk_directory (hname : IsPlain name) {number : Nat}
    (hnode : t.node? ⟨here.target, name⟩ = some (.directory number)) {rest : List Name}
    (hrest : rest ≠ []) :
    t.walk following links here slash (name :: rest) =
      t.walk following links (number :: here) slash rest := by
  rw [walk]
  simp [hname.ne_dot, hname.ne_dotDot, Nat.not_lt.mpr hname.length_le, hnode, hrest]

theorem walk_last (hname : IsPlain name)
    (hnode : ∀ target, t.node? ⟨here.target, name⟩ ≠ some (.link target)) :
    t.walk following links here slash [name] = .ok (.entry ⟨here.target, name⟩ slash) := by
  rw [walk]
  simp only [hname.ne_dot, hname.ne_dotDot, Nat.not_lt.mpr hname.length_le, if_false, if_true]
  split <;> rfl

/-- Plain names lead through the directories of these names. -/
theorem walk_of_descend {names : List Name} (hnames : ∀ n ∈ names, IsPlain n)
    (hway : t.descend? here names = some way) (hname : IsPlain name)
    (hnode : ∀ target, t.node? ⟨way.target, name⟩ ≠ some (.link target)) :
    t.walk following links here slash (names ++ [name]) =
      .ok (.entry ⟨way.target, name⟩ slash) := by
  induction names generalizing here with
  | nil =>
    cases hway
    exact walk_last hname hnode
  | cons first rest ih =>
    obtain ⟨hfirst, hrest⟩ := List.forall_mem_cons.mp hnames
    simp only [descend?] at hway
    split at hway
    · next number hnumber =>
      rw [List.cons_append, walk_directory hfirst hnumber (by simp), ih hrest hway]
    · cases hway

/-- An absolute path of plain names leads to the entry in the last directory. -/
theorem locate_of_descend {cwd : Location} {path : Bytes} {names : List Name}
    (hpath : path.contains 0 = false ∧ path ≠ [] ∧ path.length < pathLimit)
    (habsolute : Path.isAbsolute path = true) (heq : Path.names path = names ++ [name])
    (hnames : ∀ n ∈ names, IsPlain n) (hway : t.descend? [] names = some way)
    (hname : IsPlain name)
    (hnode : ∀ target, t.node? ⟨way.target, name⟩ ≠ some (.link target)) :
    t.locate cwd following path =
      .ok (.entry ⟨way.target, name⟩ (Path.endsWithSlash path)) := by
  obtain ⟨hnul, hne, hlt⟩ := hpath
  have hwalk : t.walk following linkLimit [] (Path.endsWithSlash path) (Path.names path) =
      .ok (.entry ⟨way.target, name⟩ (Path.endsWithSlash path)) := by
    rw [heq]
    exact walk_of_descend hnames hway hname hnode
  simp only [locate, hnul, hne, Nat.not_le.mpr hlt, habsolute, hwalk, Bool.false_eq_true, if_false,
    if_true]

theorem locate_root (t : Tree) (cwd : Location) (following : Following) :
    t.locate cwd following [Files.slash] = .ok (.directory 0) := by
  have hnames : Path.names [Files.slash] = [] := by decide
  have hwalk : ∀ slash, t.walk following linkLimit [] slash [] = .ok (.directory 0) := by
    intro slash
    rw [walk]
    rfl
  have hpath : List.contains [Files.slash] 0 = false ∧ ¬ pathLimit ≤ [Files.slash].length ∧
      Path.isAbsolute [Files.slash] = true := by decide
  simp only [locate, hpath, hnames, hwalk, Bool.false_eq_true, if_false, if_true,
    List.cons_ne_nil]

/-- The root is there. -/
theorem makePath_root (t : Tree) (cwd : Location) :
    t.makePath cwd [Files.slash] = (.ok (), t) := by
  have habove : Path.ancestors [Files.slash] = [] := by decide
  simp [makePath, habove, makeDirectories, ensureDirectory, makeDirectory, isDirectory, find,
    locate_root]

end TraceRing.Files.Tree
