import TraceRing.Proofs.Files.Arrivals
import TraceRing.Proofs.Files.Paths
import TraceRing.Proofs.Files.Whole

/-!
# Making directories

A directory is made with everything above it that is missing, and the attempts start at its end: as
long as the way there is missing, the directory above comes first. What this makes is what a walk
from the top down makes (`Tree.provide`): of the directories on the way those that are there are
left alone, the others are made, and the first that cannot be made ends it
(`Tree.makePath_eq_provide`). Nothing but directories is made, and nothing is made twice
(`Tree.furnished_provide`, `Tree.provide_provide`).
-/

namespace TraceRing.Files

namespace Path

/-- The directories on the way to a path, from the top down, and the path itself. -/
def levels (path : Bytes) : List Bytes :=
  ((path :: ancestors path).filter (· ≠ [])).reverse

end Path

namespace Tree

variable {t u v : Tree} {cwd : Location} {path first : Bytes} {paths : List Bytes} {place : Place}
  {n : Node} {following : Following} {e : Ending}

/-! ## One directory -/

theorem node?_addEntry_of_ne {other : Place} (h : other ≠ place) :
    (t.addEntry place n).node? other = t.node? other := by
  rw [node?, node?, entries_addEntry]
  split
  · next hsame =>
    have hname : other.name ≠ place.name := by
      intro heq
      cases other
      cases place
      simp_all
    rw [List.lookup_append, List.lookup_cons, beq_false_of_ne hname, List.lookup_nil,
      Option.or_none]
  · rfl

theorem makeDirectory_eq_ok_iff : t.makeDirectory cwd path = .ok u ↔
    ∃ place slash, t.locate cwd .never path = .ok (.entry place slash) ∧
      t.search place = .ok none ∧ u = t.addDirectory place := by
  rw [makeDirectory]
  constructor
  · intro h
    split at h
    · cases h
    · cases h
    · next place slash hlocate =>
      refine ⟨place, slash, hlocate, ?_⟩
      split at h
      · cases h
      · cases h
      · next hsearch => exact ⟨hsearch, (Except.ok.inj h).symm⟩
  · rintro ⟨place, slash, hlocate, hsearch, rfl⟩
    simp only [hlocate, hsearch]

/-- What can be made was no directory. -/
theorem isDirectory_eq_false_of_made (h : t.makeDirectory cwd path = .ok u) :
    t.isDirectory cwd path = false := by
  obtain ⟨place, slash, hlocate, hsearch, -⟩ := makeDirectory_eq_ok_iff.mp h
  obtain ⟨hname, hnode⟩ := search_eq_none_iff.mp hsearch
  have halways := locate_always hlocate hname (by simp [hnode])
  simp only [isDirectory, find, halways, hsearch]

/-- What was made is a directory. -/
theorem IsWhole.isDirectory_of_made (ht : t.IsWhole)
    (h : t.makeDirectory cwd path = .ok u) : u.isDirectory cwd path = true := by
  obtain ⟨place, slash, hlocate, hsearch, rfl⟩ := makeDirectory_eq_ok_iff.mp h
  obtain ⟨hname, hnode⟩ := search_eq_none_iff.mp hsearch
  have hinside : place.directory < (t.directories.push []).size := by
    rw [Array.size_push]
    exact Nat.lt_succ_of_lt (ht.isClosed.locate hlocate)
  have hmade : (t.addDirectory place).node? place = some (.directory t.directories.size) :=
    node?_addEntry_self hinside (by rw [node?_push, hnode]) _
  have hnever := locate_mono hlocate (within_addDirectory t place) fun _ _ _ => .inl rfl
  have halways := locate_always hnever hname (by simp [hmade])
  refine isDirectory_iff.mpr ⟨t.directories.size, find_eq_ok_iff.mpr (.inr ?_)⟩
  exact ⟨place, slash, halways, search_eq_some_iff.mpr ⟨hname, hmade⟩, fun _ => ⟨_, rfl⟩⟩

theorem isDirectory_mono (h : t.isDirectory cwd path = true) (hwithin : t.Within u) :
    u.isDirectory cwd path = true := by
  obtain ⟨number, hfind⟩ := isDirectory_iff.mp h
  exact isDirectory_iff.mpr ⟨number, find_mono hfind hwithin⟩

/-! ## Directories above a path -/

theorem IsPath.of_precedes (hpath : IsPath path) (h : Path.Precedes first path) :
    IsPath first where
  no_nul := by
    have hnul := hpath.no_nul
    simp only [List.contains_eq_mem, decide_eq_false_iff_not] at hnul ⊢
    exact fun hmem => hnul (h.sublist.subset hmem)
  ne_nil := h.ne_nil
  length_lt := Nat.lt_of_le_of_lt h.sublist.length_le hpath.length_lt

theorem start?_of_precedes (h : Path.Precedes first path) :
    t.start? cwd first = t.start? cwd path := by
  rw [start?, start?, h.isAbsolute_eq]

/-- The directories above a path that leads somewhere are there. -/
theorem isDirectory_of_precedes (h : Path.Precedes first path)
    (hlocate : t.locate cwd following path = .ok e) : t.isDirectory cwd first = true := by
  obtain ⟨hpath, start, hstart, hleads⟩ := locate_iff.mp hlocate
  obtain ⟨rest, hrest, hnames⟩ := h.beyond
  obtain ⟨before, behind, hsplit, hbefore, rfl⟩ := List.filter_eq_append_iff.mp hnames
  have hbehind : behind ≠ [] := fun hnil => hrest (congrArg _ hnil)
  obtain ⟨links', way, harrives, -⟩ := hleads.split hsplit hbehind
  rw [← arrives_filter_iff, hbefore, arrives_filter_iff] at harrives
  refine isDirectory_iff.mpr ⟨way.target, find_directory_iff.mpr ⟨hpath.of_precedes h, ?_⟩⟩
  exact ⟨start, (start?_of_precedes h).trans hstart, links', way, harrives, rfl⟩

theorem walk_of_none {links : Nat} {here : Way} {slash : Bool} {name : Name} {rest : List Name}
    (hname : IsPlain name) (hnode : t.node? ⟨here.target, name⟩ = none) (hrest : rest ≠ []) :
    t.walk following links here slash (name :: rest) = .error .noEntry := by
  rw [walk]
  simp only [hname.ne_dot, hname.ne_dotDot, hrest, false_and, if_false,
    Nat.not_lt.mpr hname.length_le, hnode]

/-- As long as a directory above it has to be made, the way to a path is missing. -/
theorem makeDirectory_of_precedes (h : Path.Precedes first path) (hpath : IsPath path)
    (hmade : t.makeDirectory cwd first = .ok u) :
    t.makeDirectory cwd path = .error (.system .noEntry) := by
  obtain ⟨place, slash, hlocate, hsearch, -⟩ := makeDirectory_eq_ok_iff.mp hmade
  obtain ⟨hlength, hnode⟩ := search_eq_none_iff.mp hsearch
  obtain ⟨-, start, hstart, hleads⟩ := locate_iff.mp hlocate
  obtain ⟨before, name, links', way, hfirst, hdot, hdotDot, harrives, rfl⟩ :=
    hleads.exists_of_entry rfl
  obtain ⟨rest, hrest, hnames⟩ := h.beyond
  -- the last name of the directory above comes up on the way, and nothing has it
  rw [hfirst, List.filter_append, List.filter_cons_of_pos (by simpa using hdot), List.filter_nil,
    List.append_assoc, List.singleton_append] at hnames
  obtain ⟨front, back, hsplit, hfront, hback⟩ := List.filter_eq_append_iff.mp hnames
  obtain ⟨dots, behind, rfl, hdots, -, hbehind⟩ := List.filter_eq_cons_iff.mp hback
  have hne : behind ≠ [] := fun hnil => hrest (by rw [← hbehind, hnil, List.filter_nil])
  have hway : t.Arrives linkLimit start (front ++ dots) links' way := by
    rw [← arrives_filter_iff, List.filter_append, hfront,
      List.filter_eq_nil_iff.mpr hdots, List.append_nil, arrives_filter_iff]
    exact harrives
  have hwalk : t.walk .never linkLimit start (Path.endsWithSlash path) (Path.names path) =
      .error .noEntry := by
    rw [hsplit, ← List.append_assoc, hway.walk_append (List.cons_ne_nil _ _)]
    exact walk_of_none ⟨hdot, hdotDot, hlength⟩ hnode hne
  rw [start?_of_precedes h, start?] at hstart
  simp only [makeDirectory, locate, hpath.no_nul, hpath.ne_nil, Nat.not_le.mpr hpath.length_lt,
    hstart, hwalk, Bool.false_eq_true, if_false]

/-! ## Entries of a directory -/

variable {directory : Bytes} {name : Name} {number : Nat}

theorem isPath_join (hdirectory : IsPath directory) (hslash : Files.slash ∉ name)
    (hnul : name.contains 0 = false) (hlimit : (Path.join directory name).length < pathLimit) :
    IsPath (Path.join directory name) where
  no_nul := Path.contains_join hdirectory.ne_nil hslash hdirectory.no_nul hnul
  ne_nil := by
    rw [Path.join_eq hdirectory.ne_nil hslash]
    split <;> exact List.append_ne_nil_of_left_ne_nil hdirectory.ne_nil _
  length_lt := hlimit

/-- The path of an entry leads to its place in the directory, unless a link is there. -/
theorem locate_join (hfind : t.find cwd directory = .ok (.directory number)) (hne : name ≠ [])
    (hslash : Files.slash ∉ name) (hnul : name.contains 0 = false) (hname : IsPlain name)
    (hlimit : (Path.join directory name).length < pathLimit)
    (hnode : ∀ target, t.node? ⟨number, name⟩ ≠ some (.link target)) :
    t.locate cwd following (Path.join directory name) = .ok (.entry ⟨number, name⟩ false) := by
  obtain ⟨hdirectory, start, hstart, links', way, harrives, rfl⟩ := find_directory_iff.mp hfind
  refine locate_iff.mpr ⟨isPath_join hdirectory hslash hnul hlimit, start, ?_, ?_⟩
  · rw [← hstart, start?, start?, Path.isAbsolute_join hdirectory.ne_nil hslash]
  · rw [Path.names_join hdirectory.ne_nil hne hslash,
      Path.endsWithSlash_join hdirectory.ne_nil hne hslash, ← walk_eq_ok_iff,
      harrives.walk_append (List.cons_ne_nil _ _)]
    exact walk_last hname hnode

/-! ## From the top down -/

/-- Makes directories one after the other up to the first that cannot be made, those that are
there left alone: whether all of them are there now, and the tree. -/
def provide (cwd : Location) : Tree → List Bytes → Bool × Tree
  | t, [] => (true, t)
  | t, path :: rest =>
    if t.isDirectory cwd path then provide cwd t rest
    else
      match t.makeDirectory cwd path with
      | .ok u => provide cwd u rest
      | .error _ => (false, t)

/-- What a call comes to: whether it succeeded, and the tree. -/
def outcome (made : Except IoError Unit × Tree) : Bool × Tree :=
  (made.1.isOk, made.2)

theorem provide_cons_of_isDirectory (h : t.isDirectory cwd path = true) :
    t.provide cwd (path :: paths) = t.provide cwd paths :=
  if_pos h

theorem provide_cons_of_made (h : t.makeDirectory cwd path = .ok u) :
    t.provide cwd (path :: paths) = u.provide cwd paths := by
  rw [provide, isDirectory_eq_false_of_made h, if_neg (by simp), h]

theorem provide_cons_of_error {e : IoError} (hdirectory : t.isDirectory cwd path = false)
    (h : t.makeDirectory cwd path = .error e) : t.provide cwd (path :: paths) = (false, t) := by
  rw [provide, hdirectory, if_neg (by simp), h]

theorem provide_append (t : Tree) (cwd : Location) (before behind : List Bytes) :
    t.provide cwd (before ++ behind) =
      if (t.provide cwd before).1 = true then (t.provide cwd before).2.provide cwd behind
      else t.provide cwd before := by
  induction before generalizing t with
  | nil => rfl
  | cons path rest ih =>
    cases hdirectory : t.isDirectory cwd path with
    | true =>
      rw [List.cons_append, provide_cons_of_isDirectory hdirectory,
        provide_cons_of_isDirectory hdirectory, ih]
    | false =>
      cases hmade : t.makeDirectory cwd path with
      | ok u => rw [List.cons_append, provide_cons_of_made hmade, provide_cons_of_made hmade, ih]
      | error e =>
        rw [List.cons_append, provide_cons_of_error hdirectory hmade,
          provide_cons_of_error hdirectory hmade, if_neg (by simp)]

/-- Where no directory can be made all of them have to be there. -/
theorem provide_of_stuck (h : ∀ path ∈ paths, ∀ u, t.makeDirectory cwd path ≠ .ok u) :
    t.provide cwd paths = (paths.all (t.isDirectory cwd), t) := by
  induction paths with
  | nil => rfl
  | cons path rest ih =>
    obtain ⟨hpath, hrest⟩ := List.forall_mem_cons.mp h
    rw [List.all_cons]
    cases hdirectory : t.isDirectory cwd path with
    | true => rw [provide_cons_of_isDirectory hdirectory, ih hrest, Bool.true_and]
    | false =>
      cases hmade : t.makeDirectory cwd path with
      | ok u => exact absurd hmade (hpath u)
      | error e => rw [provide_cons_of_error hdirectory hmade, Bool.false_and]

theorem provide_of_isDirectory (h : ∀ path ∈ paths, t.isDirectory cwd path = true) :
    t.provide cwd paths = (true, t) := by
  rw [provide_of_stuck fun path hpath u hmade => ?_, List.all_eq_true.mpr h]
  exact Bool.noConfusion ((isDirectory_eq_false_of_made hmade).symm.trans (h path hpath))

theorem ensureDirectory_eq_provide (t : Tree) (cwd : Location) (path : Bytes) :
    outcome (t.ensureDirectory cwd path) = t.provide cwd [path] := by
  rw [ensureDirectory]
  cases hmade : t.makeDirectory cwd path with
  | ok u =>
    rw [provide_cons_of_made hmade]
    rfl
  | error e =>
    cases hdirectory : t.isDirectory cwd path with
    | true =>
      rw [provide_cons_of_isDirectory hdirectory]
      rfl
    | false =>
      rw [provide_cons_of_error hdirectory hmade]
      rfl

theorem reverse_filter_cons (hpath : path ≠ []) (above : List Bytes) :
    ((path :: above).filter (· ≠ [])).reverse = (above.filter (· ≠ [])).reverse ++ [path] := by
  rw [List.filter_cons_of_pos (by simpa using hpath), List.reverse_cons]

/-- If no directory above a path can be made, the path is all there is to make, and only if all of
them are there it can be made. -/
theorem ensureDirectory_of_precedes (habove : ∀ first ∈ paths, Path.Precedes first path)
    (hstuck : ∀ first ∈ paths, ∀ u, t.makeDirectory cwd first ≠ .ok u) :
    outcome (t.ensureDirectory cwd path) = t.provide cwd (paths ++ [path]) := by
  rw [ensureDirectory_eq_provide, provide_append, provide_of_stuck hstuck]
  have hthere : ∀ {e}, t.locate cwd .never path = .ok e → paths.all (t.isDirectory cwd) = true :=
    fun hlocate => List.all_eq_true.mpr fun first hfirst =>
      isDirectory_of_precedes (habove first hfirst) hlocate
  cases hall : paths.all (t.isDirectory cwd) with
  | true => rfl
  | false =>
    have hlost : ∀ {e}, t.locate cwd .never path ≠ .ok e := fun hlocate =>
      Bool.noConfusion (hall.symm.trans (hthere hlocate))
    cases hdirectory : t.isDirectory cwd path with
    | true =>
      obtain ⟨number, hfind⟩ := isDirectory_iff.mp hdirectory
      obtain ⟨e, hlocate⟩ := exists_locate_never hfind
      exact absurd hlocate hlost
    | false =>
      cases hmade : t.makeDirectory cwd path with
      | ok u =>
        obtain ⟨place, slash, hlocate, -⟩ := makeDirectory_eq_ok_iff.mp hmade
        exact absurd hlocate hlost
      | error e => exact provide_cons_of_error hdirectory hmade

/-- Making a directory and those above it that are missing is going down from the top. -/
theorem makeDirectories_eq_provide (cwd : Location) (above : List Bytes) (t : Tree) (path : Bytes)
    (habove : (path :: above).Pairwise fun other first => first ≠ [] → Path.Precedes first other)
    (hpath : path ≠ [] → IsPath path) :
    outcome (makeDirectories cwd above t path) =
      t.provide cwd ((path :: above).filter (· ≠ [])).reverse := by
  fun_induction makeDirectories cwd above t path with
  | case1 above t =>
    have hnone : ∀ first ∈ [] :: above, ¬ decide (first ≠ []) = true := by
      intro first hfirst hne
      rcases List.mem_cons.mp hfirst with rfl | hmem
      · simp at hne
      · have hprecedes := (List.pairwise_cons.mp habove).1 first hmem (of_decide_eq_true hne)
        exact hprecedes.ne_nil (List.sublist_nil.mp hprecedes.sublist)
    rw [List.filter_eq_nil_iff.mpr hnone]
    rfl
  | case2 t path hne =>
    rw [ensureDirectory_eq_provide, List.filter_cons_of_pos (by simpa using hne)]
    rfl
  | case3 parent above t path hne hmissing e t' hfailed ih =>
    obtain ⟨hparent, habove⟩ := List.pairwise_cons.mp habove
    have hprovided := ih habove fun hparent' =>
      (hpath hne).of_precedes (hparent parent List.mem_cons_self hparent')
    rw [hfailed] at hprovided
    rw [reverse_filter_cons hne, provide_append, ← hprovided]
    rfl
  | case4 parent above t path hne hmissing t' hmade ih =>
    obtain ⟨hparent, habove⟩ := List.pairwise_cons.mp habove
    have hprovided := ih habove fun hparent' =>
      (hpath hne).of_precedes (hparent parent List.mem_cons_self hparent')
    rw [hmade] at hprovided
    rw [reverse_filter_cons hne, provide_append, ← hprovided, ensureDirectory_eq_provide]
    rfl
  | case5 parent above t path hne hother =>
    obtain ⟨hfirst, -⟩ := List.pairwise_cons.mp habove
    have hlevels : ∀ first ∈ ((parent :: above).filter (· ≠ [])).reverse,
        Path.Precedes first path := by
      intro first hmem
      obtain ⟨hmem, hne⟩ := List.mem_filter.mp (List.mem_reverse.mp hmem)
      exact hfirst first hmem (of_decide_eq_true hne)
    rw [reverse_filter_cons hne]
    -- were a directory above missing, so would be the way to the path
    exact ensureDirectory_of_precedes hlevels fun first hmem u hmade =>
      hother (makeDirectory_of_precedes (hlevels first hmem) (hpath hne) hmade)

/-- Making a path comes to what going down its levels comes to. -/
theorem makePath_eq_provide (hpath : IsPath path) :
    outcome (t.makePath cwd path) = t.provide cwd (Path.levels path) :=
  makeDirectories_eq_provide cwd _ t path (Path.pairwise_ancestors path) fun _ => hpath

/-- A path that no system call takes is not made, nor is anything above it. -/
theorem makePath_of_not_isPath (hne : path ≠ []) (hpath : ¬ IsPath path) :
    outcome (t.makePath cwd path) = (false, t) := by
  obtain ⟨e, hlocate, he⟩ : ∃ e, (∀ following, t.locate cwd following path = .error e) ∧
      e ≠ .system .noEntry := by
    cases hnul : path.contains 0 with
    | true => exact ⟨.nulInPath, fun _ => by rw [locate, hnul, if_pos rfl], by simp⟩
    | false =>
      have hlimit : pathLimit ≤ path.length :=
        Nat.not_lt.mp fun hlt => hpath ⟨hnul, hne, hlt⟩
      refine ⟨.system .nameTooLong, fun _ => ?_, by simp⟩
      rw [locate, hnul, if_neg (by simp), if_neg hne, if_pos hlimit]
  have hmade : t.makeDirectory cwd path = .error e := by rw [makeDirectory, hlocate]
  have hensured : outcome (t.ensureDirectory cwd path) = (false, t) := by
    have hdirectory : t.isDirectory cwd path = false := by rw [isDirectory, find, hlocate]
    rw [ensureDirectory_eq_provide, provide_cons_of_error hdirectory hmade]
  have hfound : t.makeDirectory cwd path ≠ .error (.system .noEntry) := fun hmissing =>
    he (Except.error.inj (hmade.symm.trans hmissing))
  rw [makePath]
  generalize Path.ancestors path = above
  fun_cases makeDirectories cwd above t path with
  | case1 => exact absurd rfl hne
  | case2 => exact hensured
  | case3 => exact absurd ‹_› hfound
  | case4 => exact absurd ‹_› hfound
  | case5 => exact hensured

/-! ## What is made -/

theorem IsWhole.makeDirectory (ht : t.IsWhole) (h : t.makeDirectory cwd path = .ok u) :
    u.IsWhole := by
  obtain ⟨place, slash, -, -, rfl⟩ := makeDirectory_eq_ok_iff.mp h
  exact ht.addDirectory place

/-- Directories were added at the ends of some paths, and nothing else was changed. -/
structure Furnished (cwd : Location) (paths : List Bytes) (t u : Tree) : Prop where
  contents : u.contents = t.contents
  sizeLimit : u.sizeLimit = t.sizeLimit
  within : t.Within u
  added : ∀ place n, u.node? place = some n → t.node? place = some n ∨
    (∃ number, n = .directory number) ∧
      ∃ path ∈ paths, ∃ slash, u.locate cwd .never path = .ok (.entry place slash)

namespace Furnished

theorem refl (cwd : Location) (paths : List Bytes) (t : Tree) : Furnished cwd paths t t :=
  ⟨rfl, rfl, .refl t, fun _ _ hn => .inl hn⟩

theorem trans (h : Furnished cwd paths t u) (h' : Furnished cwd paths u v) :
    Furnished cwd paths t v where
  contents := h'.contents.trans h.contents
  sizeLimit := h'.sizeLimit.trans h.sizeLimit
  within := h.within.trans h'.within
  added place n hn := by
    rcases h'.added place n hn with hu | hnew
    · rcases h.added place n hu with ht | ⟨hdirectory, path, hpath, slash, hlocate⟩
      · exact .inl ht
      · exact .inr ⟨hdirectory, path, hpath, slash,
          locate_mono hlocate h'.within fun _ _ _ => .inl rfl⟩
    · exact .inr hnew

theorem mono (h : Furnished cwd paths t u) {more : List Bytes} (hsubset : paths ⊆ more) :
    Furnished cwd more t u where
  contents := h.contents
  sizeLimit := h.sizeLimit
  within := h.within
  added place n hn := (h.added place n hn).imp_right fun ⟨hdirectory, path, hpath, hlocate⟩ =>
    ⟨hdirectory, path, hsubset hpath, hlocate⟩

theorem makeDirectory (h : t.makeDirectory cwd path = .ok u) : Furnished cwd [path] t u := by
  have hwithin := within_makeDirectory h
  obtain ⟨place, slash, hlocate, hsearch, rfl⟩ := makeDirectory_eq_ok_iff.mp h
  refine ⟨rfl, rfl, hwithin, fun other n hn => ?_⟩
  by_cases hother : other = place
  · subst hother
    refine .inr ⟨?_, path, List.mem_singleton_self path, slash,
      locate_mono hlocate hwithin fun _ _ _ => .inl rfl⟩
    rcases node?_addEntry hn with hold | hnew
    · rw [node?_push, (search_eq_none_iff.mp hsearch).2] at hold
      cases hold
    · exact ⟨_, hnew⟩
  · rw [addDirectory, node?_addEntry_of_ne hother, node?_push] at hn
    exact .inl hn

end Furnished

/-- Going down makes directories on the way and nothing else. -/
theorem furnished_provide (t : Tree) (cwd : Location) (paths : List Bytes) :
    Furnished cwd paths t (t.provide cwd paths).2 := by
  fun_induction provide cwd t paths with
  | case1 t => exact .refl cwd [] t
  | case2 t path rest _ ih => exact ih.mono (List.subset_cons_self path rest)
  | case3 t path rest _ u hmade ih =>
    exact ((Furnished.makeDirectory hmade).mono (by simp)).trans
      (ih.mono (List.subset_cons_self path rest))
  | case4 t path rest _ _ _ => exact .refl cwd _ t

theorem isDirectory_provide (h : t.isDirectory cwd path = true) (paths : List Bytes) :
    (t.provide cwd paths).2.isDirectory cwd path = true :=
  isDirectory_mono h (furnished_provide t cwd paths).within

theorem IsWhole.provide (ht : t.IsWhole) (cwd : Location) (paths : List Bytes) :
    (t.provide cwd paths).2.IsWhole := by
  fun_induction Tree.provide cwd t paths with
  | case1 => exact ht
  | case2 _ _ _ _ ih => exact ih ht
  | case3 _ _ _ _ _ hmade ih => exact ih (ht.makeDirectory hmade)
  | case4 => exact ht

/-- All that were to be made are directories then. -/
theorem IsWhole.isDirectory_of_provide (ht : t.IsWhole) (h : (t.provide cwd paths).1 = true) :
    ∀ path ∈ paths, (t.provide cwd paths).2.isDirectory cwd path = true := by
  fun_induction Tree.provide cwd t paths with
  | case1 => simp
  | case2 t path rest hdirectory ih =>
    exact List.forall_mem_cons.mpr ⟨isDirectory_provide hdirectory rest, ih ht h⟩
  | case3 t path rest _ u hmade ih =>
    exact List.forall_mem_cons.mpr
      ⟨isDirectory_provide (ht.isDirectory_of_made hmade) rest,
        ih (ht.makeDirectory hmade) h⟩
  | case4 => cases h

/-- Going down a second time makes nothing more. -/
theorem IsWhole.provide_provide (ht : t.IsWhole) (cwd : Location) (paths : List Bytes) :
    (t.provide cwd paths).2.provide cwd paths = t.provide cwd paths := by
  fun_induction Tree.provide cwd t paths with
  | case1 => rfl
  | case2 t path rest hdirectory ih =>
    rw [provide_cons_of_isDirectory (isDirectory_provide hdirectory rest), ih ht]
  | case3 t path rest _ u hmade ih =>
    have hdirectory := ht.isDirectory_of_made hmade
    rw [provide_cons_of_isDirectory (isDirectory_provide hdirectory rest),
      ih (ht.makeDirectory hmade)]
  | case4 t path rest hdirectory e hfailed =>
    exact provide_cons_of_error (by simpa using hdirectory) hfailed

/-! ## Making a path -/

/-- The directories on the way to a path are there or can be made, one after the other, and so can
the path. -/
def CanProvide (t : Tree) (cwd : Location) (path : Bytes) : Prop :=
  (t.provide cwd (Path.levels path)).1 = true

/-- The tree with the directories on the way to a path, and the path itself. -/
def provided (t : Tree) (cwd : Location) (path : Bytes) : Tree :=
  (t.provide cwd (Path.levels path)).2

theorem isPath_of_isDirectory (h : t.isDirectory cwd path = true) : IsPath path := by
  obtain ⟨number, hfind⟩ := isDirectory_iff.mp h
  exact (find_directory_iff.mp hfind).1

theorem mem_levels (hne : path ≠ []) : path ∈ Path.levels path :=
  List.mem_reverse.mpr (List.mem_filter.mpr ⟨List.mem_cons_self, decide_eq_true hne⟩)

/-- With a directory all directories above it are there. -/
theorem isDirectory_levels (h : t.isDirectory cwd path = true) :
    ∀ level ∈ Path.levels path, t.isDirectory cwd level = true := by
  intro level hlevel
  obtain ⟨hmem, hne⟩ := List.mem_filter.mp (List.mem_reverse.mp hlevel)
  rcases List.mem_cons.mp hmem with rfl | habove
  · exact h
  · obtain ⟨number, hfind⟩ := isDirectory_iff.mp h
    obtain ⟨e, hlocate⟩ := exists_locate_never hfind
    obtain ⟨hprecedes, -⟩ := List.pairwise_cons.mp (Path.pairwise_ancestors path)
    exact isDirectory_of_precedes (hprecedes level habove (of_decide_eq_true hne)) hlocate

/-- A directory that is there is left alone. -/
theorem provided_of_isDirectory (h : t.isDirectory cwd path = true) :
    t.CanProvide cwd path ∧ t.provided cwd path = t := by
  have hprovide := provide_of_isDirectory (isDirectory_levels h)
  exact ⟨congrArg Prod.fst hprovide, congrArg Prod.snd hprovide⟩

theorem isOk_iff {result : Except IoError Unit} : result.isOk = true ↔ result = .ok () := by
  cases result with
  | error e => exact ⟨fun h => Bool.noConfusion h, fun h => by cases h⟩
  | ok => exact ⟨fun _ => rfl, fun _ => rfl⟩

theorem makePath_of_isDirectory (h : t.isDirectory cwd path = true) :
    t.makePath cwd path = (.ok (), t) := by
  have hmade : outcome (t.makePath cwd path) = (true, t) :=
    (makePath_eq_provide (isPath_of_isDirectory h)).trans
      (provide_of_isDirectory (isDirectory_levels h))
  have htree : (outcome (t.makePath cwd path)).2 = t := congrArg Prod.snd hmade
  exact Prod.ext (isOk_iff.mp (congrArg Prod.fst hmade)) htree

namespace IsWhole

theorem isDirectory_provided (ht : t.IsWhole) (h : t.CanProvide cwd path) :
    ∀ level ∈ Path.levels path, (t.provided cwd path).isDirectory cwd level = true :=
  ht.isDirectory_of_provide h

/-- A path is made if all its levels can be provided. -/
theorem makePath_ok_iff (ht : t.IsWhole) (hne : path ≠ []) :
    (t.makePath cwd path).1 = .ok () ↔ t.CanProvide cwd path := by
  rw [← isOk_iff]
  change (outcome (t.makePath cwd path)).1 = true ↔ _
  by_cases hpath : IsPath path
  · rw [makePath_eq_provide hpath]
    rfl
  · rw [makePath_of_not_isPath hne hpath]
    refine ⟨fun h => Bool.noConfusion h, fun h => absurd ?_ hpath⟩
    exact isPath_of_isDirectory (ht.isDirectory_provided h path (mem_levels hne))

theorem makePath_of_canProvide (ht : t.IsWhole) (hne : path ≠ []) (h : t.CanProvide cwd path) :
    t.makePath cwd path = (.ok (), t.provided cwd path) := by
  have hpath := isPath_of_isDirectory (ht.isDirectory_provided h path (mem_levels hne))
  have htree : (t.makePath cwd path).2 = t.provided cwd path :=
    congrArg Prod.snd (makePath_eq_provide hpath)
  exact Prod.ext ((ht.makePath_ok_iff hne).mpr h) htree

theorem makePath (ht : t.IsWhole) (cwd : Location) (hne : path ≠ []) :
    (t.makePath cwd path).2.IsWhole := by
  change (outcome (t.makePath cwd path)).2.IsWhole
  by_cases hpath : IsPath path
  · rw [makePath_eq_provide hpath]
    exact ht.provide cwd _
  · rw [makePath_of_not_isPath hne hpath]
    exact ht

/-- The directory is there once its path was made. -/
theorem exists_find_provided (ht : t.IsWhole) (hne : path ≠ []) (h : t.CanProvide cwd path) :
    ∃ number, (t.provided cwd path).find cwd path = .ok (.directory number) :=
  isDirectory_iff.mp (ht.isDirectory_provided h path (mem_levels hne))

end IsWhole

theorem furnished_provided (t : Tree) (cwd : Location) (path : Bytes) :
    Furnished cwd (Path.levels path) t (t.provided cwd path) :=
  furnished_provide t cwd _

/-- Whether a path is made or not, nothing but levels of it is. -/
theorem furnished_makePath (t : Tree) (cwd : Location) (hne : path ≠ []) :
    Furnished cwd (Path.levels path) t (t.makePath cwd path).2 := by
  change Furnished cwd (Path.levels path) t (outcome (t.makePath cwd path)).2
  by_cases hpath : IsPath path
  · rw [makePath_eq_provide hpath]
    exact furnished_provide t cwd _
  · rw [makePath_of_not_isPath hne hpath]
    exact .refl cwd _ t

theorem exists_error_of_outcome {made : Except IoError Unit × Tree}
    (h : outcome made = (false, u)) : ∃ cause, made = (.error cause, u) := by
  obtain ⟨result, tree⟩ := made
  obtain rfl : tree = u := congrArg Prod.snd h
  cases result with
  | error cause => exact ⟨cause, rfl⟩
  | ok => exact Bool.noConfusion (congrArg Prod.fst h)

/-- Making a path a second time changes nothing, and it succeeds if it did the first time. -/
theorem IsWhole.makePath_makePath (ht : t.IsWhole) (cwd : Location) (hne : path ≠ []) :
    outcome ((t.makePath cwd path).2.makePath cwd path) = outcome (t.makePath cwd path) := by
  have htree : (t.makePath cwd path).2 = (outcome (t.makePath cwd path)).2 := rfl
  by_cases hpath : IsPath path
  · rw [makePath_eq_provide hpath, htree, makePath_eq_provide hpath, ht.provide_provide]
  · rw [makePath_of_not_isPath hne hpath, htree, makePath_of_not_isPath hne hpath]

/-- A path that cannot be provided is not made, however often that is tried. -/
theorem IsWhole.exists_error_of_missing (ht : t.IsWhole) (hne : path ≠ [])
    (h : ¬ t.CanProvide cwd path) :
    ∃ cause cause' u, t.makePath cwd path = (.error cause, u) ∧
      u.makePath cwd path = (.error cause', u) ∧ Furnished cwd (Path.levels path) t u := by
  have houtcome : outcome (t.makePath cwd path) = (false, (t.makePath cwd path).2) :=
    Prod.ext (Bool.eq_false_iff.mpr fun hok => h ((ht.makePath_ok_iff hne).mp (isOk_iff.mp hok)))
      rfl
  obtain ⟨cause, hmade⟩ := exists_error_of_outcome houtcome
  obtain ⟨cause', hmade'⟩ :=
    exists_error_of_outcome ((ht.makePath_makePath cwd hne).trans houtcome)
  exact ⟨cause, cause', _, hmade, hmade', furnished_makePath t cwd hne⟩

end Tree

end TraceRing.Files
