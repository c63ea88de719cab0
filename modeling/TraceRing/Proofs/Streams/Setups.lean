import TraceRing.Proofs.Streams.Creations
import TraceRing.Proofs.Transport.Places

/-!
# Opening the streams

What opening the streams does to a tree (`Streams.effect_openAll`). The trace directory comes first,
with the directories above it that are missing; if it cannot be made no file is touched. Then the
streams are created in the order of the places, up to the first that cannot be: those before it are
empty then, and its entry and those behind it are as they were (`Streams.Failure`). A second attempt
ends as the first did and leaves the same tree.

What stands at the entry of a stream counts once the trace directory has been made, for a directory
on the way there may take the name of a stream (`Streams.not_ok_of_shadowed`).
-/

namespace TraceRing.Streams

open Files (Tree Location Place Opened Node Path.levels Path.isAbsolute Path.names)
open Files.Tree (Furnished)

variable {t u : Tree} {cwd : Location} {directory : Bytes} {number : Nat} {core : Core}
  {grid : Grid}

/-! ## The cores of a grid -/

/-- In a grid that can be counted all streams have names that an entry can have. -/
theorem isPlain_of_mem_cores (hgrid : grid.count ≤ 2 ^ 64) (hcore : core ∈ grid.cores) :
    Tree.IsPlain (name core) := by
  obtain ⟨i, hi, rfl⟩ := List.mem_map.mp hcore
  have hlt : i < 2 ^ 64 := Nat.lt_of_lt_of_le (List.mem_range.mp hi) hgrid
  exact isPlain_name (Nat.lt_of_le_of_lt (Nat.div_le_self _ _) hlt)
    (Nat.lt_of_le_of_lt (Nat.mod_le _ _) hlt)

/-! ## All streams -/

/-- How opening the streams fails. -/
inductive Failure (grid : Grid) (t : Tree) (cwd : Location) (directory : Bytes)
    (e : TransportFailure) (u : Tree) : Prop where
  /-- Without the trace directory no file is touched. -/
  | directory {cause : IoError} (missing : ¬ t.CanProvide cwd directory)
      (names : e = .streamNotCreated directory cause)
      (furnished : Furnished cwd (Path.levels directory) t u)
  /-- The streams of all cores before the first that cannot be created are empty, and its entry and
  those of all cores behind it are as they were. -/
  | stream {number : Nat} {done later : List Core} {core : Core} {opened : List Opened}
      {cause : IoError} (provided : t.CanProvide cwd directory)
      (found : (t.provided cwd directory).find cwd directory = .ok (.directory number))
      (split : grid.cores = done ++ core :: later)
      (creatable : ∀ core ∈ done, Creatable (t.provided cwd directory) directory number core)
      (refused : ¬ Creatable (t.provided cwd directory) directory number core)
      (names : e = .streamNotCreated (path directory core) cause)
      (filled : Filled (t.provided cwd directory) u number done opened)
      (left : ∀ other ∈ core :: later,
        u.node? (place number other) = (t.provided cwd directory).node? (place number other))

/-- What opening the streams does to a tree. -/
structure Effect (grid : Grid) (t : Tree) (cwd : Location) (directory : Bytes) : Prop where
  /-- A trace directory that is there is taken as it is. -/
  existing : t.isDirectory cwd directory = true →
    t.CanProvide cwd directory ∧ t.provided cwd directory = t
  /-- One that is not comes with the directories above it that are missing. -/
  furnished : Furnished cwd (Path.levels directory) t (t.provided cwd directory)
  ok_iff : (∃ opened, (openAll grid t cwd directory).result = .ok opened) ↔
    t.CanProvide cwd directory ∧ ∃ number,
      (t.provided cwd directory).find cwd directory = .ok (.directory number) ∧
      ∀ core ∈ grid.cores, Creatable (t.provided cwd directory) directory number core
  opened : ∀ opened, (openAll grid t cwd directory).result = .ok opened → ∃ number,
    (t.provided cwd directory).find cwd directory = .ok (.directory number) ∧
    Filled (t.provided cwd directory) (openAll grid t cwd directory).tree number grid.cores opened
  failed : ∀ e, (openAll grid t cwd directory).result = .error e →
    Failure grid t cwd directory e (openAll grid t cwd directory).tree
  again_iff :
    (∃ opened, (openAll grid (openAll grid t cwd directory).tree cwd directory).result =
      .ok opened) ↔ ∃ opened, (openAll grid t cwd directory).result = .ok opened
  again_tree : (openAll grid (openAll grid t cwd directory).tree cwd directory).tree =
    (openAll grid t cwd directory).tree
  whole : (openAll grid t cwd directory).tree.IsWhole

theorem openAll_of_made (h : t.makePath cwd directory = (.ok (), u)) :
    openAll grid t cwd directory = create u cwd directory grid.cores := by
  rw [openAll, h]

theorem openAll_of_not_made {cause : IoError} (h : t.makePath cwd directory = (.error cause, u)) :
    openAll grid t cwd directory = ⟨.error (.streamNotCreated directory cause), u, []⟩ := by
  rw [openAll, h]

theorem isWhole_openAll (ht : t.IsWhole) (grid : Grid) (cwd : Location)
    (hdirectory : directory ≠ []) : (openAll grid t cwd directory).tree.IsWhole := by
  have hwhole := ht.makePath cwd hdirectory
  match hmade : t.makePath cwd directory with
  | (.ok (), u) =>
    rw [hmade] at hwhole
    rw [openAll_of_made hmade]
    exact isWhole_create hwhole cwd directory grid.cores
  | (.error _, u) =>
    rw [hmade] at hwhole
    rw [openAll_of_not_made hmade]
    exact hwhole

theorem effect_of_missing (ht : t.IsWhole) (hdirectory : directory ≠ [])
    (hmissing : ¬ t.CanProvide cwd directory) : Effect grid t cwd directory := by
  obtain ⟨cause, cause', u, hmade, hmade', hfurnished⟩ :=
    ht.exists_error_of_missing hdirectory hmissing
  have hopen : openAll grid t cwd directory = _ := openAll_of_not_made hmade
  have hopen' : openAll grid u cwd directory = _ := openAll_of_not_made hmade'
  refine ⟨Tree.provided_of_isDirectory, Tree.furnished_provided t cwd directory, ?_, ?_, ?_, ?_,
    ?_, isWhole_openAll ht grid cwd hdirectory⟩
  all_goals simp only [hopen, hopen']
  · exact iff_of_false (by rintro ⟨_, ⟨⟩⟩) fun h => hmissing h.1
  · rintro _ ⟨⟩
  · rintro _ ⟨⟩
    exact .directory hmissing rfl hfurnished
  · exact iff_of_false (by rintro ⟨_, ⟨⟩⟩) (by rintro ⟨_, ⟨⟩⟩)

theorem effect_of_provided (ht : t.IsWhole) (hdirectory : directory ≠ [])
    (hgrid : grid.count ≤ 2 ^ 64) (hprovided : t.CanProvide cwd directory)
    (hfind : (t.provided cwd directory).find cwd directory = .ok (.directory number))
    (hunlinked : ∀ core ∈ grid.cores, Unlinked (t.provided cwd directory) number core) :
    Effect grid t cwd directory := by
  have hnames : ∀ core ∈ grid.cores, Tree.IsPlain (name core) := fun core =>
    isPlain_of_mem_cores hgrid
  have hcores := grid.nodup_cores
  have hwhole : (t.provided cwd directory).IsWhole := ht.provide cwd _
  have houtcome := outcome_create hwhole hfind hcores hnames hunlinked
  have hmade := ht.makePath_of_canProvide hdirectory hprovided
  have hfind' := Tree.find_mono hfind houtcome.within
  have hmade' := Tree.makePath_of_isDirectory (Tree.isDirectory_iff.mpr ⟨number, hfind'⟩)
  have hagain := houtcome.again hfind' hcores hnames hunlinked
  have htree := isWhole_openAll ht grid cwd hdirectory
  rw [← openAll_of_made hmade', ← openAll_of_made hmade] at hagain
  rw [← openAll_of_made hmade] at houtcome
  cases houtcome with
  | all creatable filled result =>
    refine ⟨Tree.provided_of_isDirectory, Tree.furnished_provided t cwd directory, ?_,
      fun opened' hopened => ?_, fun e he => ?_, hagain.2, hagain.1, htree⟩
    · exact iff_of_true ⟨_, result⟩ ⟨hprovided, number, hfind, creatable⟩
    · cases result.symm.trans hopened
      exact ⟨number, hfind, filled⟩
    · cases result.symm.trans he
  | @stopped done later core _ cause split creatable refused filled result =>
    have hcore : core ∈ grid.cores := split ▸ List.mem_append_right _ List.mem_cons_self
    refine ⟨Tree.provided_of_isDirectory, Tree.furnished_provided t cwd directory, ?_,
      fun opened' hopened => ?_, fun e he => ?_, hagain.2, hagain.1, htree⟩
    · refine iff_of_false ?_ ?_
      · rintro ⟨_, hopened⟩
        cases result.symm.trans hopened
      · rintro ⟨-, number', hfind', hcreatable⟩
        cases hfind.symm.trans hfind'
        exact refused (hcreatable core hcore)
    · cases result.symm.trans hopened
    · cases result.symm.trans he
      exact .stream hprovided hfind split creatable refused rfl filled
        (filled.left (split ▸ hcores))

/-- A place that only directories were added to has the links and the devices it had. -/
theorem Unlinked.of_furnished {paths : List Bytes} (h : Furnished cwd paths t u)
    (hunlinked : Unlinked t number core) : Unlinked u number core where
  no_link target hlink := by
    rcases h.added _ _ hlink with hold | ⟨⟨number, hdirectory⟩, -⟩
    · exact hunlinked.no_link target hold
    · cases hdirectory
  no_device d hdevice := by
    rcases h.added _ _ hdevice with hold | ⟨⟨number, hdirectory⟩, -⟩
    · exact hunlinked.no_device d hold
    · cases hdirectory

/-- Opening the streams succeeds exactly if the trace directory is there or can be made and no entry
of a stream stands in the way, and otherwise it stops at what stands in the way; what it leaves
behind is known in either case and whole, and a second attempt leaves the same. -/
theorem effect_openAll (ht : t.IsWhole) (hdirectory : directory ≠ [])
    (hgrid : grid.count ≤ 2 ^ 64)
    (hunlinked : ∀ number,
      (t.provided cwd directory).find cwd directory = .ok (.directory number) →
        ∀ core ∈ grid.cores, Unlinked t number core) : Effect grid t cwd directory := by
  by_cases hprovided : t.CanProvide cwd directory
  · obtain ⟨number, hfind⟩ := ht.exists_find_provided hdirectory hprovided
    refine effect_of_provided ht hdirectory hgrid hprovided hfind fun core hcore => ?_
    exact (hunlinked number hfind core hcore).of_furnished
      (Tree.furnished_provided t cwd directory)
  · exact effect_of_missing ht hdirectory hprovided

/-- The root with a stream that holds something. -/
def stale : Tree :=
  (Tree.empty.addFile (place 0 ⟨0, 0⟩)).2.write 0 (.ofBytes [1, 2, 3])

theorem node?_empty (place : Place) : Tree.empty.node? place = none := by
  cases hnode : Tree.empty.node? place with
  | none => rfl
  | some n =>
    have hlt := Tree.lt_of_node? hnode
    obtain ⟨directory, name⟩ := place
    obtain rfl : directory = 0 := by simpa [Tree.empty] using hlt
    cases hnode

theorem node?_stale {place : Place} {n : Node} (hn : stale.node? place = some n) :
    n = .file 0 := by
  rcases Tree.node?_addEntry (t := { Tree.empty with contents := #[.empty] }) hn with hold | hnew
  · cases (node?_empty place).symm.trans hold
  · exact hnew

theorem unlinked_stale (number : Nat) (core : Core) : Unlinked stale number core where
  no_link target hlink := by cases node?_stale hlink
  no_device d hdevice := by cases node?_stale hdevice

theorem count_twoByEight : twoByEight.count ≤ 2 ^ 64 := by
  decide +kernel

/-- The root is the trace directory, reached through a directory that is missing. -/
theorem effect_openAll_of_stale :
    stale.IsWhole ∧ Bytes.ofText "/new/.." ≠ [] ∧ twoByEight.count ≤ 2 ^ 64 ∧
      (∀ number core, Unlinked stale number core) ∧
      Effect twoByEight stale [] (Bytes.ofText "/new/..") := by
  have hwhole : stale.IsWhole := ((Tree.Made.empty.file _).written _ _).isWhole
  have hdirectory : Bytes.ofText "/new/.." ≠ [] := by decide +kernel
  exact ⟨hwhole, hdirectory, count_twoByEight, unlinked_stale,
    effect_openAll hwhole hdirectory count_twoByEight fun number _ core _ =>
      unlinked_stale number core⟩

/-! ## Standing in the way -/

/-- A stream that cannot be created, whichever it is, keeps the others from being opened. -/
theorem not_ok_of_refused (ht : t.IsWhole) (hdirectory : directory ≠ [])
    (hgrid : grid.count ≤ 2 ^ 64) (hprovided : t.CanProvide cwd directory)
    (hfind : (t.provided cwd directory).find cwd directory = .ok (.directory number))
    (hunlinked : ∀ core, Unlinked (t.provided cwd directory) number core)
    (hcore : core ∈ grid.cores)
    (hrefused : ¬ Creatable (t.provided cwd directory) directory number core) :
    ¬ ∃ opened, (openAll grid t cwd directory).result = .ok opened := by
  intro hopened
  obtain ⟨-, number', hfind', hcreatable⟩ :=
    (effect_of_provided ht hdirectory hgrid hprovided hfind fun core _ =>
      hunlinked core).ok_iff.mp hopened
  cases hfind.symm.trans hfind'
  exact hrefused (hcreatable core hcore)

/-- Where nothing was there are no links, whatever directories are made. -/
theorem unlinked_of_empty {paths : List Bytes} (h : Furnished cwd paths .empty u)
    (number : Nat) (core : Core) : Unlinked u number core := by
  refine Unlinked.of_furnished h ⟨fun target hlink => ?_, fun d hdevice => ?_⟩
  · cases (node?_empty _).symm.trans hlink
  · cases (node?_empty _).symm.trans hdevice

theorem isDirectory_root (t : Tree) (cwd : Location) :
    t.isDirectory cwd [Files.slash] = true := by
  simp only [Tree.isDirectory, Tree.find, Tree.locate_root]

/-- A directory can be made in the root of the empty tree, and it is all there is then. -/
theorem makeDirectory_empty {file : Bytes} {name : Files.Name} (hpath : Tree.IsPath file)
    (habsolute : Path.isAbsolute file = true) (hnames : Path.names file = [name])
    (hname : Tree.IsPlain name) :
    Tree.empty.makeDirectory [] file = .ok (Tree.empty.addDirectory ⟨0, name⟩) ∧
      (Tree.empty.addDirectory ⟨0, name⟩).node? ⟨0, name⟩ = some (.directory 1) := by
  have hlocate : Tree.empty.locate [] .never file =
      .ok (.entry ⟨0, name⟩ (Files.Path.endsWithSlash file)) :=
    Tree.locate_of_descend ⟨hpath.no_nul, hpath.ne_nil, hpath.length_lt⟩ habsolute
      (show _ = [] ++ [name] from hnames) (by simp) rfl hname (by simp [node?_empty])
  refine ⟨Tree.makeDirectory_eq_ok_iff.mpr ⟨_, _, hlocate,
    Tree.search_eq_none_iff.mpr ⟨hname.length_le, node?_empty _⟩, rfl⟩, ?_⟩
  refine Tree.node?_addEntry_self (t := ⟨#[[], []], #[], none⟩) ?_ ?_ _
  · exact Nat.lt_of_lt_of_eq Nat.zero_lt_two rfl
  · exact (Tree.node?_push .empty _).trans (node?_empty _)

theorem first_mem_twoByEight : ⟨0, 0⟩ ∈ twoByEight.cores :=
  List.mem_map.mpr ⟨0, List.mem_range.mpr twoByEight.count_pos, rfl⟩

/-- In the tree as it is found nothing but files stands where streams may belong. -/
def IsClear (grid : Grid) (t : Tree) : Prop :=
  ∀ number, ∀ core ∈ grid.cores, ∀ n,
    t.node? (place number core) = some n → ∃ inode, n = .file inode

theorem isClear_empty (grid : Grid) : IsClear grid .empty := fun number core _ n hn => by
  cases (node?_empty _).symm.trans hn

/-- A directory that is made on the way to the trace directory may take the name of a stream. -/
theorem not_ok_of_shadowed :
    Tree.empty.CanProvide [] (Bytes.ofText "/stream-0-0/..") ∧
      ¬ ∃ opened, (openAll twoByEight .empty [] (Bytes.ofText "/stream-0-0/..")).result =
        .ok opened := by
  have hlevels : Path.levels (Bytes.ofText "/stream-0-0/..") =
      [[Files.slash], Bytes.ofText "/stream-0-0", Bytes.ofText "/stream-0-0/.."] := by
    decide +kernel
  have hnames : Path.names (Bytes.ofText "/stream-0-0/..") = [name ⟨0, 0⟩, Files.dotDot] := by
    decide +kernel
  have hpath : Tree.IsPath (Bytes.ofText "/stream-0-0") := by decide +kernel
  have hpath' : Tree.IsPath (Bytes.ofText "/stream-0-0/..") := by decide +kernel
  have hplain : Tree.IsPlain (name ⟨0, 0⟩) :=
    isPlain_of_mem_cores count_twoByEight first_mem_twoByEight
  obtain ⟨hmade, hnode⟩ :=
    makeDirectory_empty hpath (by decide +kernel) (by decide +kernel) hplain
  generalize hu : Tree.empty.addDirectory ⟨0, name ⟨0, 0⟩⟩ = u at hmade hnode
  have hfind : u.find [] (Bytes.ofText "/stream-0-0/..") = .ok (.directory 0) := by
    refine Tree.find_directory_iff.mpr
      ⟨hpath', [], if_pos (by decide +kernel), Tree.linkLimit, [], ?_, rfl⟩
    rw [hnames]
    exact .enter hplain hnode (.back .done)
  have hprovide : Tree.empty.provide [] (Path.levels (Bytes.ofText "/stream-0-0/..")) =
      (true, u) := by
    rw [hlevels, Tree.provide_cons_of_isDirectory (isDirectory_root _ _),
      Tree.provide_cons_of_made hmade,
      Tree.provide_cons_of_isDirectory (Tree.isDirectory_iff.mpr ⟨0, hfind⟩)]
    rfl
  have hprovided : Tree.empty.CanProvide [] (Bytes.ofText "/stream-0-0/..") :=
    congrArg Prod.fst hprovide
  have htree : Tree.empty.provided [] (Bytes.ofText "/stream-0-0/..") = u :=
    congrArg Prod.snd hprovide
  refine ⟨hprovided, not_ok_of_refused Tree.isWhole_empty hpath'.ne_nil count_twoByEight hprovided
    (htree ▸ hfind) (unlinked_of_empty (Tree.furnished_provided _ _ _) 0) first_mem_twoByEight ?_⟩
  rw [htree]
  intro hcreatable
  obtain ⟨inode, hinode⟩ := hcreatable.regular _ hnode
  cases hinode

/-- The root, written with some slashes. -/
def slashes (n : Nat) : Bytes :=
  List.replicate n Files.slash

theorem names_slashes (n : Nat) : Path.names (slashes n) = [] := by
  induction n with
  | zero => rfl
  | succ n ih => rw [slashes, List.replicate_succ, Files.Path.names_slash, ← slashes, ih]

theorem find_slashes {n : Nat} (hn : 0 < n) (hlimit : n < Tree.pathLimit) (t : Tree) :
    t.find [] (slashes n) = .ok (.directory 0) := by
  have hlength : (slashes n).length = n := List.length_replicate
  have hpath : Tree.IsPath (slashes n) := by
    refine ⟨?_, List.ne_nil_of_length_pos (by rwa [hlength]), by rwa [hlength]⟩
    simp only [slashes, List.contains_eq_mem, List.mem_replicate, decide_eq_false_iff_not]
    exact fun h => absurd h.2 (by decide)
  have habsolute : Path.isAbsolute (slashes n) = true := by
    obtain ⟨m, rfl⟩ := Nat.exists_eq_succ_of_ne_zero (Nat.ne_of_gt hn)
    rfl
  refine Tree.find_directory_iff.mpr ⟨hpath, [], if_pos habsolute, Tree.linkLimit, [], ?_, rfl⟩
  rw [names_slashes]
  exact .done

/-- Behind the longest path there is no room for the name of a stream. -/
theorem not_ok_of_long {n : Nat} (hlimit : n < Tree.pathLimit) (hlong : Tree.pathLimit ≤ n + 2) :
    Tree.empty.CanProvide [] (slashes n) ∧
      ¬ ∃ opened, (openAll twoByEight .empty [] (slashes n)).result = .ok opened := by
  have hn : 0 < n := by
    rw [Tree.pathLimit] at hlong
    omega
  have hlength : (slashes n).length = n := List.length_replicate
  have hne : slashes n ≠ [] := List.ne_nil_of_length_pos (by rwa [hlength])
  have hfind := find_slashes hn hlimit .empty
  obtain ⟨hprovided, htree⟩ :=
    Tree.provided_of_isDirectory (Tree.isDirectory_iff.mpr ⟨0, hfind⟩)
  refine ⟨hprovided, not_ok_of_refused Tree.isWhole_empty hne count_twoByEight hprovided
    (by rw [htree]; exact hfind) (unlinked_of_empty (Tree.furnished_provided _ _ _) 0)
    first_mem_twoByEight ?_⟩
  intro hcreatable
  have hroom := hcreatable.length_lt
  have hname := length_name_pos ⟨0, 0⟩
  rw [path, Files.Path.join_eq hne (slash_notMem_name _)] at hroom
  split at hroom
  all_goals
    simp only [List.length_append, List.length_cons, hlength] at hroom
    omega

/-- A directory is not made if its path goes on with `.` behind one that is missing. -/
theorem not_ok_of_dotted :
    (∃ u, Tree.empty.makeDirectory [] (Bytes.ofText "/missing") = .ok u ∧
      u.isDirectory [] (Bytes.ofText "/missing/.") = true) ∧
      ¬ ∃ opened, (openAll twoByEight .empty [] (Bytes.ofText "/missing/.")).result =
        .ok opened := by
  have hplain : Tree.IsPlain (Bytes.ofText "missing") := by decide +kernel
  have hnames : Path.names (Bytes.ofText "/missing/.") = [Bytes.ofText "missing", Files.dot] := by
    decide +kernel
  have hlevels : Path.levels (Bytes.ofText "/missing/.") =
      [[Files.slash], Bytes.ofText "/missing/."] := by
    decide +kernel
  have hpath : Tree.IsPath (Bytes.ofText "/missing") := by decide +kernel
  have hpath' : Tree.IsPath (Bytes.ofText "/missing/.") := by decide +kernel
  obtain ⟨hmade, hnode⟩ :=
    makeDirectory_empty hpath (by decide +kernel) (by decide +kernel) hplain
  refine ⟨⟨_, hmade, ?_⟩, ?_⟩
  · refine Tree.isDirectory_iff.mpr ⟨1, Tree.find_directory_iff.mpr
      ⟨hpath', [], if_pos (by decide +kernel), Tree.linkLimit, [1], ?_, rfl⟩⟩
    rw [hnames]
    exact .enter hplain hnode (.stay .done)
  · have hlost : ∀ following e,
        Tree.empty.locate [] following (Bytes.ofText "/missing/.") ≠ .ok e := by
      intro following e hlocate
      obtain ⟨-, start, -, hleads⟩ := Tree.locate_iff.mp hlocate
      have hwalk := hleads.walk
      rw [hnames, Tree.walk_of_none hplain (node?_empty _) (List.cons_ne_nil _ _)] at hwalk
      cases hwalk
    have hstuck : ∀ u, Tree.empty.makeDirectory [] (Bytes.ofText "/missing/.") ≠ .ok u := by
      intro u hmade
      obtain ⟨place, slash, hlocate, -⟩ := Tree.makeDirectory_eq_ok_iff.mp hmade
      exact hlost _ _ hlocate
    have hmissing : ¬ Tree.empty.CanProvide [] (Bytes.ofText "/missing/.") := by
      intro hprovided
      rw [Tree.CanProvide, hlevels, Tree.provide_cons_of_isDirectory (isDirectory_root _ _),
        Tree.provide_of_stuck (by simpa using hstuck)] at hprovided
      obtain ⟨number, hfind⟩ := Tree.isDirectory_iff.mp
        (List.all_eq_true.mp hprovided _ (List.mem_singleton_self _))
      obtain ⟨e, hlocate⟩ := Tree.exists_locate_never hfind
      exact hlost _ _ hlocate
    exact fun hopened =>
      hmissing ((effect_of_missing Tree.isWhole_empty hpath'.ne_nil hmissing).ok_iff.mp hopened).1

/-- That the trace directory can be made and that nothing is in the way of a stream is not enough as
the tree is found. A directory on the way may come in the way of a stream, and a path may leave no
room for the name of one; nor is a directory made whose path goes on with `.` behind one that is
missing, although it would be there with that one. -/
theorem not_ok_as_found :
    ¬ ((∃ opened, (openAll twoByEight .empty [] (Bytes.ofText "/stream-0-0/..")).result =
        .ok opened) ↔
      Tree.empty.CanProvide [] (Bytes.ofText "/stream-0-0/..") ∧ IsClear twoByEight .empty) ∧
    ¬ ((∃ opened, (openAll twoByEight .empty [] (slashes 4095)).result = .ok opened) ↔
      Tree.empty.CanProvide [] (slashes 4095) ∧ IsClear twoByEight .empty) ∧
    ¬ ((∃ opened, (openAll twoByEight .empty [] (Bytes.ofText "/missing/.")).result = .ok opened) ↔
      (∃ u, Tree.empty.makeDirectory [] (Bytes.ofText "/missing") = .ok u ∧
        u.isDirectory [] (Bytes.ofText "/missing/.") = true) ∧ IsClear twoByEight .empty) := by
  obtain ⟨hshadowed, hshadowed'⟩ := not_ok_of_shadowed
  obtain ⟨hlong, hlong'⟩ :=
    not_ok_of_long (show 4095 < Tree.pathLimit by decide) (show Tree.pathLimit ≤ 4097 by decide)
  obtain ⟨hdotted, hdotted'⟩ := not_ok_of_dotted
  have hclear := isClear_empty twoByEight
  exact ⟨fun h => hshadowed' (h.mpr ⟨hshadowed, hclear⟩),
    fun h => hlong' (h.mpr ⟨hlong, hclear⟩), fun h => hdotted' (h.mpr ⟨hdotted, hclear⟩)⟩

end TraceRing.Streams
