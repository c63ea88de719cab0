import TraceRing.Proofs.Files.Directories
import TraceRing.Proofs.Streams.Names

/-!
# Creating streams

Streams are created in a directory one after the other, and the first that cannot be created ends
it (`Streams.outcome_create`). Creating a stream leaves an empty file at its entry and touches
nothing else (`Streams.Emptied`); so the streams before one that cannot be created are empty, and
all other entries and files are as they were (`Streams.Filled`). To create the same streams again
changes nothing (`Streams.Outcome.again`).
-/

namespace TraceRing.Streams

open Files (Tree Location Place Opened)

variable {t u v : Tree} {cwd : Location} {directory : Bytes} {number inode : Nat}
  {core : Core} {cores : List Core} {opened : List Opened}

/-! ## One stream -/

/-- The stream of a core can be created: its path is not too long, and where it leads is a file or
nothing. -/
structure Creatable (t : Tree) (directory : Bytes) (number : Nat) (core : Core) : Prop where
  length_lt : (path directory core).length < Tree.pathLimit
  regular : ∀ n, t.node? (place number core) = some n → ∃ inode, n = .file inode

/-- Where the stream of a core belongs there is neither a link nor a device. -/
structure Unlinked (t : Tree) (number : Nat) (core : Core) : Prop where
  no_link : ∀ target, t.node? (place number core) ≠ some (.link target)
  no_device : ∀ d, t.node? (place number core) ≠ some (.device d)

/-- There is an empty file at a place, and every other entry and every other file is as it was. -/
structure Emptied (t u : Tree) (place : Place) (inode : Nat) : Prop where
  node : u.node? place = some (.file inode)
  lt : inode < u.contents.size
  empty : u.read inode = .empty
  within : t.Within u
  elsewhere : ∀ other, other ≠ place → u.node? other = t.node? other
  size_le : t.contents.size ≤ u.contents.size
  kept : ∀ other < t.contents.size, t.node? place ≠ some (.file other) →
    u.read other = t.read other
  sizeLimit : u.sizeLimit = t.sizeLimit

theorem emptied_addFile {place : Place} (hinside : place.directory < t.directories.size)
    (hvacant : t.node? place = none) : Emptied t (t.addFile place).2 place (t.addFile place).1 where
  node := Tree.node?_addEntry_self (t := { t with contents := _ }) hinside hvacant _
  lt := by simp [Tree.addFile, Tree.addEntry]
  empty := by simp [Tree.addFile, Tree.addEntry, Tree.read]
  within := Tree.within_addFile t place
  elsewhere _ hother := Tree.node?_addEntry_of_ne (t := { t with contents := _ }) hother
  size_le := by simp [Tree.addFile, Tree.addEntry]
  kept _ hlt _ := (Tree.addFile_of_lt hlt place).2.2
  sizeLimit := rfl

theorem emptied_write (ht : t.IsWhole) {place : Place}
    (hnode : t.node? place = some (.file inode)) :
    Emptied t (t.write inode .empty) place inode where
  node := hnode
  lt := by
    rw [Tree.size_contents_write]
    exact ht.stands place _ hnode
  empty := Tree.read_write_self (ht.stands place _ hnode) _
  within := Tree.within_of_directories rfl
  elsewhere _ _ := rfl
  size_le := by simp
  kept other _ hother := by
    refine Tree.read_write_of_ne (fun heq => hother ?_) _
    rw [hnode, heq]
  sizeLimit := rfl

theorem isWhole_of_create (ht : t.IsWhole) {file : Bytes} {o : Opened}
    (h : t.create cwd file = .ok (o, u)) : u.IsWhole := by
  simp only [Tree.create] at h
  repeat' split at h
  all_goals cases h
  · exact ht.addFile _
  · exact ht.write _ _
  · exact ht

/-- The path of a stream leads to its entry. -/
theorem locate_path (hfind : t.find cwd directory = .ok (.directory number))
    (hname : Tree.IsPlain (name core)) (hlimit : (path directory core).length < Tree.pathLimit)
    (hlink : ∀ target, t.node? (place number core) ≠ some (.link target)) :
    t.locate cwd .unlessSlash (path directory core) = .ok (.entry (place number core) false) :=
  Tree.locate_join hfind (name_ne_nil core) (slash_notMem_name core) (contains_name core) hname
    hlimit hlink

theorem create_of_creatable (ht : t.IsWhole)
    (hfind : t.find cwd directory = .ok (.directory number)) (hname : Tree.IsPlain (name core))
    (h : Creatable t directory number core) :
    ∃ inode u, t.create cwd (path directory core) = .ok (.file inode, u) ∧
      Emptied t u (place number core) inode ∧ u.IsWhole := by
  have hlocate := locate_path hfind hname h.length_lt fun target hlink => by
    obtain ⟨inode, hinode⟩ := h.regular _ hlink
    cases hinode
  cases hnode : t.node? (place number core) with
  | none =>
    have hsearch := Tree.search_eq_none_iff.mpr ⟨hname.length_le, hnode⟩
    have hcreate : t.create cwd (path directory core) = .ok
        (.file (t.addFile (place number core)).1, (t.addFile (place number core)).2) := by
      simp only [Tree.create, hlocate, hsearch]
    exact ⟨_, _, hcreate, emptied_addFile (ht.isClosed.locate hlocate) hnode, ht.addFile _⟩
  | some n =>
    obtain ⟨inode, rfl⟩ := h.regular n hnode
    have hsearch := Tree.search_eq_some_iff.mpr ⟨hname.length_le, hnode⟩
    exact ⟨inode, _, by simp only [Tree.create, hlocate, hsearch], emptied_write ht hnode,
      ht.write inode .empty⟩

theorem creatable_of_create (hfind : t.find cwd directory = .ok (.directory number))
    (hname : Tree.IsPlain (name core)) (hunlinked : Unlinked t number core) {o : Opened}
    (h : t.create cwd (path directory core) = .ok (o, u)) :
    Creatable t directory number core := by
  simp only [Tree.create] at h
  split at h
  · cases h
  · cases h
  · cases h
  · next place hlocate =>
    obtain ⟨hpath, -⟩ := Tree.locate_iff.mp hlocate
    have hplace := locate_path hfind hname hpath.length_lt hunlinked.no_link
    cases hplace.symm.trans hlocate
    refine ⟨hpath.length_lt, fun n hn => ?_⟩
    rw [Tree.search_eq_some_iff.mpr ⟨hname.length_le, hn⟩] at h
    cases n with
    | directory number => cases h
    | file inode => exact ⟨inode, rfl⟩
    | link target => exact absurd hn (hunlinked.no_link target)
    | device d => exact absurd hn (hunlinked.no_device d)

/-! ## Some streams -/

/-- The stream of a core is an empty file, and that file was opened. -/
def HoldsNothing (u : Tree) (number : Nat) (core : Core) (o : Opened) : Prop :=
  ∃ inode, o = .file inode ∧ u.node? (place number core) = some (.file inode) ∧
    u.read inode = .empty

/-- The streams of some cores are empty files, opened in the order of the cores, and every other
entry and every other file is as it was. -/
structure Filled (t u : Tree) (number : Nat) (cores : List Core) (opened : List Opened) :
    Prop where
  streams : List.Forall₂ (HoldsNothing u number) cores opened
  within : t.Within u
  elsewhere : ∀ other, (∀ core ∈ cores, other ≠ place number core) →
    u.node? other = t.node? other
  kept : ∀ inode < t.contents.size,
    (∀ core ∈ cores, t.node? (place number core) ≠ some (.file inode)) →
      u.read inode = t.read inode
  sizeLimit : u.sizeLimit = t.sizeLimit

theorem filled_nil (t : Tree) (number : Nat) : Filled t t number [] [] :=
  ⟨.nil, .refl t, fun _ _ => rfl, fun _ _ _ => rfl, rfl⟩

theorem exists_of_forall₂ (h : List.Forall₂ (HoldsNothing u number) cores opened)
    (hcore : core ∈ cores) :
    ∃ inode, u.node? (place number core) = some (.file inode) ∧ u.read inode = .empty := by
  induction h with
  | nil => cases hcore
  | cons hfirst _ ih =>
    rcases List.mem_cons.mp hcore with rfl | hmem
    · obtain ⟨inode, -, hnode, hempty⟩ := hfirst
      exact ⟨inode, hnode, hempty⟩
    · exact ih hmem

/-- An empty file stays empty, also if it is the stream of another core. -/
theorem Filled.read_of_empty (h : Filled u v number cores opened) (hlt : inode < u.contents.size)
    (hempty : u.read inode = .empty) : v.read inode = .empty := by
  by_cases hshared : ∃ core ∈ cores, u.node? (place number core) = some (.file inode)
  · obtain ⟨core, hcore, hnode⟩ := hshared
    obtain ⟨inode', hnode', hempty'⟩ := exists_of_forall₂ h.streams hcore
    cases (h.within _ _ hnode).symm.trans hnode'
    exact hempty'
  · rw [h.kept inode hlt fun core hcore hnode => hshared ⟨core, hcore, hnode⟩, hempty]

theorem Emptied.filled (h : Emptied t u (place number core) inode)
    (hrest : Filled u v number cores opened) (hcore : core ∉ cores) :
    Filled t v number (core :: cores) (.file inode :: opened) where
  streams := .cons ⟨inode, rfl, hrest.within _ _ h.node, hrest.read_of_empty h.lt h.empty⟩
    hrest.streams
  within := h.within.trans hrest.within
  elsewhere other hother := by
    obtain ⟨hfirst, hlater⟩ := List.forall_mem_cons.mp hother
    rw [hrest.elsewhere other hlater, h.elsewhere other hfirst]
  kept other hlt hother := by
    obtain ⟨hfirst, hlater⟩ := List.forall_mem_cons.mp hother
    rw [hrest.kept other (Nat.lt_of_lt_of_le hlt h.size_le) fun core' hmem => ?_,
      h.kept other hlt hfirst]
    rw [h.elsewhere _ fun heq => hcore (place_injective number heq ▸ hmem)]
    exact hlater core' hmem
  sizeLimit := hrest.sizeLimit.trans h.sizeLimit

/-! ## Creating streams -/

/-- How creating the streams of some cores ends. -/
inductive Outcome (t : Tree) (directory : Bytes) (number : Nat) (cores : List Core) (s : Setup) :
    Prop where
  | all {opened : List Opened}
      (creatable : ∀ core ∈ cores, Creatable t directory number core)
      (filled : Filled t s.tree number cores opened) (result : s.result = .ok opened)
  | stopped {done later : List Core} {core : Core} {opened : List Opened} {cause : IoError}
      (split : cores = done ++ core :: later)
      (creatable : ∀ core ∈ done, Creatable t directory number core)
      (refused : ¬ Creatable t directory number core)
      (filled : Filled t s.tree number done opened)
      (result : s.result = .error (.streamNotCreated (path directory core) cause))

theorem Outcome.within {s : Setup} (h : Outcome t directory number cores s) :
    t.Within s.tree := by
  cases h with
  | all _ filled _ => exact filled.within
  | stopped _ _ _ filled _ => exact filled.within

theorem create_cons_of_error {cause : IoError}
    (h : t.create cwd (path directory core) = .error cause) (cores : List Core) :
    create t cwd directory (core :: cores) =
      ⟨.error (.streamNotCreated (path directory core) cause), t,
        [.creatingStream (path directory core)]⟩ := by
  rw [path, name] at h ⊢
  simp only [create, h]

theorem create_cons_of_ok {o : Opened}
    (h : t.create cwd (path directory core) = .ok (o, u)) (cores : List Core) :
    create t cwd directory (core :: cores) =
      ⟨(create u cwd directory cores).result.map (o :: ·), (create u cwd directory cores).tree,
        .creatingStream (path directory core) :: (create u cwd directory cores).notices⟩ := by
  rw [path, name] at h ⊢
  simp only [create, h]

/-- Whether a stream can be created does not depend on the others. -/
theorem Creatable.congr (hnode : u.node? (place number core) = t.node? (place number core)) :
    Creatable u directory number core ↔ Creatable t directory number core :=
  ⟨fun h => ⟨h.length_lt, hnode ▸ h.regular⟩, fun h => ⟨h.length_lt, hnode ▸ h.regular⟩⟩

theorem Unlinked.congr (hnode : u.node? (place number core) = t.node? (place number core)) :
    Unlinked u number core ↔ Unlinked t number core :=
  ⟨fun h => ⟨hnode ▸ h.no_link, hnode ▸ h.no_device⟩,
    fun h => ⟨hnode ▸ h.no_link, hnode ▸ h.no_device⟩⟩

/-- One stream more before the others. -/
theorem Outcome.cons {s s' : Setup} (h : Outcome u directory number cores s)
    (hemptied : Emptied t u (place number core) inode) (hcore : core ∉ cores)
    (hcreatable : Creatable t directory number core)
    (hresult : s'.result = s.result.map (.file inode :: ·)) (htree : s'.tree = s.tree) :
    Outcome t directory number (core :: cores) s' := by
  have hsame : ∀ other ∈ cores, Creatable u directory number other ↔
      Creatable t directory number other := fun other hother =>
    Creatable.congr (hemptied.elsewhere _ fun heq =>
      hcore (place_injective number heq ▸ hother))
  cases h with
  | all creatable filled result =>
    refine .all ?_ (htree ▸ hemptied.filled filled hcore) (by rw [hresult, result]; rfl)
    exact List.forall_mem_cons.mpr ⟨hcreatable, fun other hother =>
      (hsame other hother).mp (creatable other hother)⟩
  | @stopped done later last _ cause split creatable refused filled result =>
    have hdone : ∀ other ∈ done, other ∈ cores := fun other hother =>
      split ▸ List.mem_append_left _ hother
    have hlast : last ∈ cores := split ▸ List.mem_append_right _ List.mem_cons_self
    refine .stopped (congrArg _ split) ?_ (fun h => refused ((hsame last hlast).mpr h))
      (htree ▸ hemptied.filled filled fun hmem => hcore (hdone core hmem))
      (by rw [hresult, result]; rfl)
    exact List.forall_mem_cons.mpr ⟨hcreatable, fun other hother =>
      (hsame other (hdone other hother)).mp (creatable other hother)⟩

/-- Streams are created one after the other, up to the first that cannot be. -/
theorem outcome_create (ht : t.IsWhole) (hfind : t.find cwd directory = .ok (.directory number))
    (hcores : cores.Nodup) (hnames : ∀ core ∈ cores, Tree.IsPlain (name core))
    (hunlinked : ∀ core ∈ cores, Unlinked t number core) :
    Outcome t directory number cores (create t cwd directory cores) := by
  induction cores generalizing t with
  | nil => exact .all (by simp) (filled_nil t number) rfl
  | cons core rest ih =>
    obtain ⟨hcore, hrest⟩ := List.nodup_cons.mp hcores
    obtain ⟨hname, hnames⟩ := List.forall_mem_cons.mp hnames
    obtain ⟨hfirst, hunlinked⟩ := List.forall_mem_cons.mp hunlinked
    by_cases hcreatable : Creatable t directory number core
    · obtain ⟨inode, u, hcreate, hemptied, hu⟩ := create_of_creatable ht hfind hname hcreatable
      have hlater := ih hu (Tree.find_mono hfind hemptied.within) hrest hnames
        fun other hother => (Unlinked.congr (hemptied.elsewhere _ fun heq =>
          hcore (place_injective number heq ▸ hother))).mpr (hunlinked other hother)
      rw [create_cons_of_ok hcreate]
      exact hlater.cons hemptied hcore hcreatable rfl rfl
    · cases hcreate : t.create cwd (path directory core) with
      | ok made => exact absurd (creatable_of_create hfind hname hfirst hcreate) hcreatable
      | error cause =>
        rw [create_cons_of_error hcreate]
        exact .stopped rfl (by simp) hcreatable (filled_nil t number) rfl

theorem isWhole_create (ht : t.IsWhole) (cwd : Location) (directory : Bytes)
    (cores : List Core) : (create t cwd directory cores).tree.IsWhole := by
  induction cores generalizing t with
  | nil => exact ht
  | cons core rest ih =>
    cases hcreate : t.create cwd (path directory core) with
    | error cause =>
      rw [create_cons_of_error hcreate]
      exact ht
    | ok made =>
      rw [create_cons_of_ok hcreate]
      exact ih (isWhole_of_create ht hcreate)

/-! ## Creating them again -/

theorem write_of_empty (h : t.read inode = .empty) : t.write inode .empty = t := by
  have hcontents : t.contents.setIfInBounds inode .empty = t.contents := by
    refine Array.ext (by simp) fun i hi hi' => ?_
    by_cases hsame : inode = i
    · subst hsame
      rw [Array.getElem_setIfInBounds_self, ← h, Tree.read, Array.getD_eq_getD_getElem?,
        Array.getElem?_eq_getElem hi', Option.getD_some]
    · exact Array.getElem_setIfInBounds_ne hi' hsame
  rw [Tree.write, hcontents]

/-- Nothing happens to a stream that is empty. -/
theorem create_of_empty (hfind : t.find cwd directory = .ok (.directory number))
    (hname : Tree.IsPlain (name core)) (hlimit : (path directory core).length < Tree.pathLimit)
    {o : Opened} (h : HoldsNothing t number core o) :
    t.create cwd (path directory core) = .ok (o, t) := by
  obtain ⟨inode, rfl, hnode, hempty⟩ := h
  have hlocate := locate_path hfind hname hlimit (by simp [hnode])
  have hsearch := Tree.search_eq_some_iff.mpr ⟨hname.length_le, hnode⟩
  simp only [Tree.create, hlocate, hsearch, write_of_empty hempty]

/-- Streams that are empty are passed over. -/
theorem create_append (hfind : t.find cwd directory = .ok (.directory number))
    {done : List Core} (hnames : ∀ core ∈ done, Tree.IsPlain (name core))
    (hlimits : ∀ core ∈ done, (path directory core).length < Tree.pathLimit)
    (h : List.Forall₂ (HoldsNothing t number) done opened) (later : List Core) :
    (create t cwd directory (done ++ later)).tree = (create t cwd directory later).tree ∧
      (create t cwd directory (done ++ later)).result =
        (create t cwd directory later).result.map (opened ++ ·) := by
  induction h with
  | nil =>
    refine ⟨rfl, ?_⟩
    cases hresult : (create t cwd directory later).result <;> simp [hresult, Except.map]
  | @cons core o rest _ hfirst _ ih =>
    obtain ⟨hname, hnames⟩ := List.forall_mem_cons.mp hnames
    obtain ⟨hlimit, hlimits⟩ := List.forall_mem_cons.mp hlimits
    obtain ⟨htree, hresult⟩ := ih hnames hlimits
    rw [List.cons_append, create_cons_of_ok (create_of_empty hfind hname hlimit hfirst)]
    refine ⟨htree, ?_⟩
    simp only [hresult]
    cases (create t cwd directory later).result <;> rfl

/-- The entries that are not reached are left. -/
theorem Filled.left {done later : List Core} (h : Filled t u number done opened)
    (hcores : (done ++ core :: later).Nodup) :
    ∀ other ∈ core :: later, u.node? (place number other) = t.node? (place number other) := by
  obtain ⟨-, -, hapart⟩ := List.nodup_append.mp hcores
  exact fun other hother => h.elsewhere _ fun first hfirst heq =>
    hapart first hfirst other hother (place_injective number heq).symm

/-- A second attempt ends as the first did, and changes nothing. -/
theorem Outcome.again {s : Setup} (h : Outcome t directory number cores s)
    (hfind : s.tree.find cwd directory = .ok (.directory number)) (hcores : cores.Nodup)
    (hnames : ∀ core ∈ cores, Tree.IsPlain (name core))
    (hunlinked : ∀ core ∈ cores, Unlinked t number core) :
    (create s.tree cwd directory cores).tree = s.tree ∧
      ((∃ opened, (create s.tree cwd directory cores).result = .ok opened) ↔
        ∃ opened, s.result = .ok opened) := by
  cases h with
  | all creatable filled result =>
    obtain ⟨htree, hresult⟩ := create_append hfind hnames
      (fun core hcore => (creatable core hcore).length_lt) filled.streams []
    rw [List.append_nil] at htree hresult
    exact ⟨htree, iff_of_true ⟨_, hresult⟩ ⟨_, result⟩⟩
  | @stopped done later core _ cause split creatable refused filled result =>
    subst split
    have hcore : core ∈ done ++ core :: later := List.mem_append_right _ List.mem_cons_self
    have hnode := filled.left hcores core List.mem_cons_self
    obtain ⟨htree, hresult⟩ := create_append hfind
      (fun core hcore => hnames core (List.mem_append_left _ hcore))
      (fun core hcore => (creatable core hcore).length_lt) filled.streams (core :: later)
    cases hcreate : s.tree.create cwd (path directory core) with
    | ok made =>
      have hcreatable := creatable_of_create hfind (hnames core hcore)
        ((Unlinked.congr hnode).mpr (hunlinked core hcore)) hcreate
      exact absurd ((Creatable.congr hnode).mp hcreatable) refused
    | error cause' =>
      rw [create_cons_of_error hcreate] at htree hresult
      refine ⟨htree, iff_of_false ?_ ?_⟩
      · rintro ⟨opened, hopened⟩
        cases hresult.symm.trans hopened
      · rintro ⟨opened, hopened⟩
        cases result.symm.trans hopened

end TraceRing.Streams
