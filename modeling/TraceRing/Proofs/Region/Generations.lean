import TraceRing.Proofs.Region.Setups

/-!
# Generations of a region

Any number of parties set up, attach to, use and release the region of one path, in any order. A
handle keeps the file it has mapped, and once its owner has released the region, another file may
come to stand at the path: the next generation. What holds at every moment (`Region.orderly`)
follows from what each call preserves (`Scene.Sound`): as long as there is an owner, its file is the
one at the path, and two handles have mapped one file unless an owner was released between their
openings.
-/

namespace TraceRing.Region

open Files (Contents Tree Location Place)

variable {g : Geometry} {grid : Grid}

/-! ## Observation -/

/-- After whatever is done to the rings through the writer, the observer reads what the writer
does. -/
def Observes (g : Geometry) (grid : Grid) (t : Tree) (observer writer : Region) : Prop :=
  ∀ a : Access g, observer.rings g grid (writer.access grid t a).2 =
    writer.rings g grid (writer.access grid t a).2

section Observation

variable {t : Tree} {r r' : Region}

theorem observes_of_inode (h : r.inode = r'.inode) : Observes g grid t r r' := by
  intro a
  rw [rings, rings, h]

theorem place_origin (grid : Grid) : place grid ⟨0, 0⟩ = .ok 0 := by
  simp [place, Grid.index, grid.count_pos]

/-- What is done to one file is not seen in another. -/
theorem rings_access_of_ne (h : r'.inode ≠ r.inode) (a : Access g) :
    r.rings g grid (r'.access grid t a).2 = r.rings g grid t := by
  rw [rings, rings, read_access_of_ne h]

/-- Through a handle on another file some write is not seen. -/
theorem not_observes_of_ne (h : r'.inode ≠ r.inode) (hsize : (t.read r'.inode).size = size g grid) :
    ¬ Observes g grid t r r' := by
  intro hobserves
  -- a producer index that the observer's first ring does not have
  let index := (Ring.load g (t.read r.inode) 0).producerIndex + 1
  have hsame := congrArg (fun rings => rings[0]?.map Ring.producerIndex)
    (hobserves (.ring ⟨0, 0⟩ (.publishProducer index)))
  have hread := load_access hsize (.ring ⟨0, 0⟩ (.publishProducer index) : Access g)
    grid.count_pos
  rw [reaches_ring (place_origin grid), decide_eq_true rfl] at hread
  simp only [rings_access_of_ne h] at hsame
  simp only [rings, Ring.loadAll, List.getElem?_map, List.getElem?_range grid.count_pos,
    Option.map_some, hread, if_true, Access.perform, Ring.run, Ring.publishProducer,
    Option.some.injEq] at hsame
  simp [index] at hsame

end Observation

/-! ## Calls -/

/-- What a party does with regions. Handles are known by the time they were opened at. -/
inductive Call (g : Geometry) where
  | setUp
  | attach
  | access (openedAt : Nat) (a : Access g)
  | release (openedAt : Nat)

/-- A region that was opened and is not released yet. -/
structure Handle where
  region : Region
  openedAt : Nat

/-- The files, the number of calls so far, the handles, and when owners were released. -/
structure Scene where
  tree : Tree
  clock : Nat
  live : List Handle
  removals : List Nat

namespace Scene

def initial (t : Tree) : Scene :=
  ⟨t, 0, [], []⟩

def handle? (s : Scene) (openedAt : Nat) : Option Handle :=
  s.live.find? fun h => h.openedAt = openedAt

def owners (s : Scene) : List Handle :=
  s.live.filter fun h => h.region.owner

/-- The scene after a call that changed the files at most. -/
def ticked (s : Scene) (t : Tree) : Scene :=
  { s with tree := t, clock := s.clock + 1 }

/-- The scene after a region was opened, or was not. -/
def opened (s : Scene) (t : Tree) : Except TransportFailure Region → Scene
  | .ok r => { s.ticked t with live := ⟨r, s.clock⟩ :: s.live }
  | .error _ => s.ticked t

/-- The scene after a handle was released. It is gone even if its file could not be removed. -/
def released (s : Scene) (cwd : Location) (h : Handle) : Scene where
  tree := (h.region.release s.tree cwd).2.1
  clock := s.clock + 1
  live := s.live.filter fun other => other.openedAt ≠ h.openedAt
  removals := if h.region.owner then s.clock :: s.removals else s.removals

/-- A call through a handle that is not there does nothing. -/
def after (grid : Grid) (cwd : Location) (path : Bytes) (s : Scene) : Call g → Scene
  | .setUp =>
    s.opened (setUp g grid s.tree cwd path).tree (setUp g grid s.tree cwd path).result
  | .attach => s.opened s.tree (attach g grid s.tree cwd path)
  | .access openedAt a =>
    match s.handle? openedAt with
    | none => s.ticked s.tree
    | some h => s.ticked (h.region.access grid s.tree a).2
  | .release openedAt =>
    match s.handle? openedAt with
    | none => s.ticked s.tree
    | some h => s.released cwd h

def through (grid : Grid) (cwd : Location) (path : Bytes) (t : Tree) (calls : List (Call g)) :
    Scene :=
  calls.foldl (after grid cwd path) (initial t)

/-- An owner was released between the openings of two handles. -/
def Parted (s : Scene) (a b : Handle) : Prop :=
  ∃ k ∈ s.removals, a.openedAt < k ∧ k < b.openedAt ∨ b.openedAt < k ∧ k < a.openedAt

/-! ## Invariants -/

/-- What stands at the path: nothing, and then every handle was opened before some removal, or the
file of the one owner, which was opened after all removals. -/
inductive Standing (cwd : Location) (path : Bytes) (place : Place) (s : Scene) : Prop where
  | absent (howners : s.owners = []) (hvacant : s.tree.Vacant cwd path place)
      (hpast : ∀ h ∈ s.live, ∃ k ∈ s.removals, h.openedAt < k)
  | present {o : Handle} (howners : s.owners = [o])
      (hfile : s.tree.HasFile cwd path place o.region.inode)
      (hlast : ∀ k ∈ s.removals, k < o.openedAt)

/-- A handle of a scene: it has mapped a file of the right size, at some time before. -/
structure Handles (g : Geometry) (grid : Grid) (path : Bytes) (s : Scene) (h : Handle) :
    Prop where
  path_eq : h.region.path = path
  size : (s.tree.read h.region.inode).size = Region.size g grid
  lt_clock : h.openedAt < s.clock

structure Sound (g : Geometry) (grid : Grid) (cwd : Location) (path : Bytes) (place : Place)
    (s : Scene) : Prop where
  limit : size g grid ≤ s.tree.growthLimit
  handles : ∀ h ∈ s.live, s.Handles g grid path h
  distinct : ∀ a ∈ s.live, ∀ b ∈ s.live, a.openedAt = b.openedAt → a = b
  past : ∀ k ∈ s.removals, k < s.clock
  files : ∀ a ∈ s.live, ∀ b ∈ s.live, a.region.inode = b.region.inode ↔ ¬ s.Parted a b
  standing : s.Standing cwd path place

theorem Parted.symm {s : Scene} {a b : Handle} (h : s.Parted a b) : s.Parted b a := by
  obtain ⟨k, hk, hbetween⟩ := h
  exact ⟨k, hk, hbetween.symm⟩

theorem not_parted_self (s : Scene) (a : Handle) : ¬ s.Parted a a := by
  rintro ⟨k, -, hbetween⟩
  omega

/-- A handle that was opened after all removals is parted from those that were opened before one. -/
theorem parted_iff_of_last {s : Scene} {a o : Handle} (hlast : ∀ k ∈ s.removals, k < o.openedAt) :
    s.Parted a o ↔ ∃ k ∈ s.removals, a.openedAt < k := by
  constructor
  · rintro ⟨k, hk, hbetween⟩
    have hbefore := hlast k hk
    exact ⟨k, hk, by omega⟩
  · rintro ⟨k, hk, hafter⟩
    exact ⟨k, hk, .inl ⟨hafter, hlast k hk⟩⟩

theorem mem_owners {s : Scene} {h : Handle} :
    h ∈ s.owners ↔ h ∈ s.live ∧ h.region.owner = true :=
  List.mem_filter

namespace Sound

variable {cwd : Location} {path : Bytes} {place : Place} {s : Scene}
  (hs : s.Sound g grid cwd path place)
include hs

/-- A call that changes at most what is in the files. -/
theorem ticked {t : Tree} (hdirectories : t.directories = s.tree.directories)
    (hlimit : t.sizeLimit = s.tree.sizeLimit)
    (hsizes : ∀ inode, (t.read inode).size = (s.tree.read inode).size) :
    (s.ticked t).Sound g grid cwd path place where
  limit := Tree.growthLimit_congr hlimit ▸ hs.limit
  handles h hh :=
    ⟨(hs.handles h hh).path_eq, (hsizes _).trans (hs.handles h hh).size,
      Nat.lt_succ_of_lt (hs.handles h hh).lt_clock⟩
  distinct := hs.distinct
  past k hk := Nat.lt_succ_of_lt (hs.past k hk)
  files := hs.files
  standing := by
    cases hs.standing with
    | absent howners hvacant hpast => exact .absent howners (hvacant.congr hdirectories) hpast
    | present howners hfile hlast =>
      exact .present howners (hfile.mono (Tree.within_of_directories hdirectories)) hlast

/-- A new handle is one on the file of the owner, or on a file that no handle has mapped. -/
theorem opened {t : Tree} {r : Region} (hpath : r.path = path)
    (hlimit : t.sizeLimit = s.tree.sizeLimit)
    (hsizes : ∀ h ∈ s.live, (t.read h.region.inode).size = (s.tree.read h.region.inode).size)
    (hsize : (t.read r.inode).size = size g grid)
    (hfiles : ∀ a ∈ s.live, a.region.inode = r.inode ↔ ¬ ∃ k ∈ s.removals, a.openedAt < k)
    (hstanding : (s.opened t (.ok r)).Standing cwd path place) :
    (s.opened t (.ok r)).Sound g grid cwd path place where
  limit := Tree.growthLimit_congr hlimit ▸ hs.limit
  handles := by
    refine List.forall_mem_cons.mpr ⟨⟨hpath, hsize, Nat.lt_succ_self _⟩, fun h hh => ?_⟩
    exact ⟨(hs.handles h hh).path_eq, (hsizes h hh).trans (hs.handles h hh).size,
      Nat.lt_succ_of_lt (hs.handles h hh).lt_clock⟩
  distinct := by
    have hne : ∀ a ∈ s.live, a.openedAt ≠ s.clock :=
      fun a ha => Nat.ne_of_lt (hs.handles a ha).lt_clock
    refine List.forall_mem_cons.mpr ⟨List.forall_mem_cons.mpr ⟨fun _ => rfl, fun b hb heq => ?_⟩,
      fun a ha => List.forall_mem_cons.mpr ⟨fun heq => ?_, hs.distinct a ha⟩⟩
    · exact absurd heq.symm (hne b hb)
    · exact absurd heq (hne a ha)
  past k hk := Nat.lt_succ_of_lt (hs.past k hk)
  files := by
    have hnew : ∀ a ∈ s.live, a.region.inode = r.inode ↔ ¬ s.Parted a ⟨r, s.clock⟩ :=
      fun a ha => (hfiles a ha).trans (not_congr (parted_iff_of_last hs.past).symm)
    refine List.forall_mem_cons.mpr
      ⟨List.forall_mem_cons.mpr ⟨?_, fun b hb => ?_⟩, fun a ha =>
        List.forall_mem_cons.mpr ⟨hnew a ha, hs.files a ha⟩⟩
    · exact iff_of_true rfl (not_parted_self _ _)
    · exact eq_comm.trans ((hnew b hb).trans (not_congr ⟨Parted.symm, Parted.symm⟩))
  standing := hstanding

/-- Where an owner is there, whoever comes to its file attaches. -/
theorem attached {o : Handle} (howners : s.owners = [o])
    (hfile : s.tree.HasFile cwd path place o.region.inode)
    (hlast : ∀ k ∈ s.removals, k < o.openedAt) :
    attach g grid s.tree cwd path = .ok ⟨path, o.region.inode, false⟩ ∧
      (s.opened s.tree (.ok ⟨path, o.region.inode, false⟩)).Sound g grid cwd path place := by
  have ho : o ∈ s.live := (mem_owners.mp (howners ▸ List.mem_singleton_self o)).1
  have hsize := (hs.handles o ho).size
  refine ⟨by rw [attach_of_find hfile.find, if_pos hsize], hs.opened rfl rfl (fun _ _ => rfl) hsize
    (fun a ha => (hs.files a ha o ho).trans (not_congr (parted_iff_of_last hlast))) ?_⟩
  refine .present (o := o) ?_ hfile hlast
  exact (List.filter_cons_of_neg (by simp)).trans howners

theorem after_attach : (s.after grid cwd path (.attach : Call g)).Sound g grid cwd path place := by
  cases hs.standing with
  | absent _ hvacant _ =>
    have hattach : attach g grid s.tree cwd path =
        .error (.regionNotAttached path (.system .noEntry)) := by
      simp only [attach, Tree.openExisting, hvacant.find]
    rw [after, hattach]
    exact hs.ticked rfl rfl fun _ => rfl
  | present howners hfile hlast =>
    obtain ⟨hattach, hsound⟩ := hs.attached howners hfile hlast
    rw [after, hattach]
    exact hsound

theorem after_setUp : (s.after grid cwd path (.setUp : Call g)).Sound g grid cwd path place := by
  cases hs.standing with
  | absent howners hvacant hpast =>
    have hlt : ∀ h ∈ s.live, h.region.inode < s.tree.contents.size :=
      fun h hh => lt_of_size (hs.handles h hh).size
    rw [after, setUp_of_vacant _ _ hvacant, if_pos hs.limit]
    refine hs.opened rfl rfl (fun h hh => ?_) (Tree.size_addZeros ..) (fun a ha => ?_) ?_
    · rw [Tree.read_addZeros_of_lt (hlt h hh)]
    · exact iff_of_false (Nat.ne_of_lt (hlt a ha)) (fun hnone => hnone (hpast a ha))
    · refine .present (o := ⟨⟨path, s.tree.contents.size, true⟩, s.clock⟩) ?_
        (hvacant.addZeros _) hs.past
      exact (List.filter_cons_of_pos rfl).trans (congrArg _ howners)
  | present howners hfile hlast =>
    obtain ⟨hattach, hsound⟩ := hs.attached howners hfile hlast
    rw [after, setUp_of_exists hfile.createNew, hattach]
    exact hsound

theorem after_access (openedAt : Nat) (a : Access g) :
    (s.after grid cwd path (.access openedAt a)).Sound g grid cwd path place := by
  simp only [after]
  split
  · exact hs.ticked rfl rfl fun _ => rfl
  · next h hfound =>
    have hh := List.mem_of_find?_eq_some hfound
    obtain ⟨hdirectories, hlimit, hsizes⟩ := access_frame (hs.handles h hh).size a
    exact hs.ticked hdirectories hlimit hsizes

/-- The release of the owner frees the path. -/
theorem release_owner {o : Handle} (ho : o ∈ s.live) (howner : o.region.owner = true) :
    s.owners = [o] ∧ s.tree.HasFile cwd path place o.region.inode ∧
      o.region.release s.tree cwd =
        (.ok (), s.tree.dropEntry place, [.releasingRegion path]) := by
  have hmem := mem_owners.mpr ⟨ho, howner⟩
  cases hs.standing with
  | absent howners _ _ => simp [howners] at hmem
  | present howners hfile hlast =>
    rw [howners, List.mem_singleton] at hmem
    subst hmem
    refine ⟨howners, hfile, ?_⟩
    simp only [release, howner, if_true, (hs.handles _ ho).path_eq, hfile.remove]

theorem released {h : Handle} (hh : h ∈ s.live) :
    (s.released cwd h).Sound g grid cwd path place := by
  have hlive : ∀ a ∈ (s.released cwd h).live, a ∈ s.live :=
    fun a ha => (List.mem_filter.mp ha).1
  have hframe : (s.released cwd h).tree.sizeLimit = s.tree.sizeLimit ∧
      (s.released cwd h).tree.contents = s.tree.contents := by
    simp only [Scene.released]
    cases howner : h.region.owner with
    | false => simp only [release, howner]; exact ⟨rfl, rfl⟩
    | true => rw [(hs.release_owner hh howner).2.2]; exact ⟨rfl, rfl⟩
  have hread : ∀ inode, (s.released cwd h).tree.read inode = s.tree.read inode := by
    intro inode
    rw [Tree.read, Tree.read, hframe.2]
  -- what comes into the list of removals is later than every opening
  have hremovals : ∀ k ∈ (s.released cwd h).removals, k ∈ s.removals ∨ k = s.clock := by
    intro k hk
    simp only [Scene.released] at hk
    split at hk
    · exact (List.mem_cons.mp hk).symm
    · exact .inl hk
  have hkept : ∀ k ∈ s.removals, k ∈ (s.released cwd h).removals := by
    intro k hk
    simp only [Scene.released]
    split
    · exact List.mem_cons_of_mem _ hk
    · exact hk
  constructor
  · exact Tree.growthLimit_congr hframe.1 ▸ hs.limit
  · intro a ha
    have hbefore := hs.handles a (hlive a ha)
    exact ⟨hbefore.path_eq, by rw [hread, hbefore.size], Nat.lt_succ_of_lt hbefore.lt_clock⟩
  · exact fun a ha b hb => hs.distinct a (hlive a ha) b (hlive b hb)
  · intro k hk
    rcases hremovals k hk with hbefore | rfl
    · exact Nat.lt_succ_of_lt (hs.past k hbefore)
    · exact Nat.lt_succ_self _
  · intro a ha b hb
    refine (hs.files a (hlive a ha) b (hlive b hb)).trans (not_congr ⟨?_, ?_⟩)
    · rintro ⟨k, hk, hbetween⟩
      exact ⟨k, hkept k hk, hbetween⟩
    · rintro ⟨k, hk, hbetween⟩
      have ha' := (hs.handles a (hlive a ha)).lt_clock
      have hb' := (hs.handles b (hlive b hb)).lt_clock
      rcases hremovals k hk with hbefore | rfl
      · exact ⟨k, hbefore, hbetween⟩
      · omega
  · cases howner : h.region.owner with
    | true =>
      obtain ⟨howners, hfile, hrelease⟩ := hs.release_owner hh howner
      refine .absent ?_ ?_ fun a ha => ⟨s.clock, ?_, (hs.handles a (hlive a ha)).lt_clock⟩
      · refine List.filter_eq_nil_iff.mpr fun a ha hown => ?_
        obtain ⟨hmem, hne⟩ := List.mem_filter.mp ha
        have hsame : a ∈ s.owners := mem_owners.mpr ⟨hmem, hown⟩
        rw [howners, List.mem_singleton] at hsame
        simp [hsame] at hne
      · simp only [Scene.released, hrelease]
        exact hfile.dropEntry
      · simp only [Scene.released, howner, if_true, List.mem_cons_self]
    | false =>
      have hsame : (s.released cwd h).owners = s.owners := by
        simp only [owners, Scene.released, List.filter_filter]
        refine List.filter_congr fun a ha => ?_
        cases hown : a.region.owner with
        | false => rfl
        | true =>
          have hne : a.openedAt ≠ h.openedAt := by
            intro heq
            rw [hs.distinct a ha h hh heq, howner] at hown
            cases hown
          simp [hne]
      have htree : (s.released cwd h).tree = s.tree := by
        simp only [Scene.released, release, howner, Bool.false_eq_true, if_false]
      have hsame' : (s.released cwd h).removals = s.removals := by
        simp only [Scene.released, howner, Bool.false_eq_true, if_false]
      cases hs.standing with
      | absent howners hvacant hpast =>
        refine .absent (hsame.trans howners) (htree ▸ hvacant) fun a ha => ?_
        rw [hsame']
        exact hpast a (hlive a ha)
      | present howners hfile hlast =>
        exact .present (hsame.trans howners) (htree ▸ hfile) (hsame' ▸ hlast)

theorem after_release (openedAt : Nat) :
    (s.after grid cwd path (.release openedAt : Call g)).Sound g grid cwd path place := by
  simp only [after]
  split
  · exact hs.ticked rfl rfl fun _ => rfl
  · next h hfound => exact hs.released (List.mem_of_find?_eq_some hfound)

theorem after (c : Call g) : (s.after grid cwd path c).Sound g grid cwd path place := by
  cases c with
  | setUp => exact hs.after_setUp
  | attach => exact hs.after_attach
  | access openedAt a => exact hs.after_access openedAt a
  | release openedAt => exact hs.after_release openedAt

end Sound

theorem sound_through {cwd : Location} {path : Bytes} {place : Place} {t : Tree}
    (ht : t.Vacant cwd path place) (hlimit : size g grid ≤ t.growthLimit) (calls : List (Call g)) :
    (through grid cwd path t calls).Sound g grid cwd path place := by
  have hinitial : (initial t).Sound g grid cwd path place :=
    ⟨hlimit, by simp [initial], by simp [initial], by simp [initial], by simp [initial],
      .absent rfl ht (by simp [initial])⟩
  exact List.foldlRecOn calls (after grid cwd path) hinitial fun _ hs c _ => hs.after c

/-! ## At every moment -/

/-- What can be counted on at some moment. -/
structure Orderly (g : Geometry) (grid : Grid) (cwd : Location) (path : Bytes) (s : Scene) :
    Prop where
  one_owner : s.owners.length ≤ 1
  exists_iff : s.tree.pathExists cwd path = true ↔ s.owners.length = 1
  owned : ∀ o ∈ s.owners, s.tree.find cwd path = .ok (.file o.region.inode)
  size : s.tree.pathExists cwd path = true →
    s.tree.fileSize? cwd path = some (Region.size g grid)
  attach_isOk : (attach g grid s.tree cwd path).isOk = s.tree.pathExists cwd path
  setUp_ok : ∃ r, (setUp g grid s.tree cwd path).result = .ok r ∧
    r.owner = !s.tree.pathExists cwd path
  release_other : ∀ h ∈ s.live, h.region.owner = false →
    h.region.release s.tree cwd = (.ok (), s.tree, [])
  release_owner : ∀ h ∈ s.live, h.region.owner = true → ∃ t,
    h.region.release s.tree cwd = (.ok (), t, [.releasingRegion path]) ∧
      t.pathExists cwd path = false
  observe_iff : ∀ a ∈ s.live, ∀ b ∈ s.live,
    Observes g grid s.tree a.region b.region ∧ Observes g grid s.tree b.region a.region ↔
      ¬ s.Parted a b
  /-- Of two handles that do not observe each other, neither sees anything of the other. -/
  apart : ∀ a ∈ s.live, ∀ b ∈ s.live, s.Parted a b → ∀ x : Access g,
    a.region.rings g grid (b.region.access grid s.tree x).2 = a.region.rings g grid s.tree

theorem Sound.orderly {cwd : Location} {path : Bytes} {place : Place} {s : Scene}
    (hs : s.Sound g grid cwd path place) : s.Orderly g grid cwd path := by
  have hrelease_owner : ∀ h ∈ s.live, h.region.owner = true → ∃ t,
      h.region.release s.tree cwd = (.ok (), t, [.releasingRegion path]) ∧
        t.pathExists cwd path = false := by
    intro h hh howner
    obtain ⟨-, hfile, hrelease⟩ := hs.release_owner hh howner
    exact ⟨_, hrelease, hfile.dropEntry.pathExists⟩
  have hrelease_other : ∀ h ∈ s.live, h.region.owner = false →
      h.region.release s.tree cwd = (.ok (), s.tree, []) := by
    intro h _ howner
    simp only [release, howner, Bool.false_eq_true, if_false]
  have hobserve : ∀ a ∈ s.live, ∀ b ∈ s.live,
      Observes g grid s.tree a.region b.region ∧ Observes g grid s.tree b.region a.region ↔
        ¬ s.Parted a b := by
    intro a ha b hb
    rw [← hs.files a ha b hb]
    constructor
    · intro hobserves
      refine Decidable.byContradiction fun hne => ?_
      exact not_observes_of_ne (Ne.symm hne) (hs.handles b hb).size hobserves.1
    · intro hsame
      exact ⟨observes_of_inode hsame, observes_of_inode hsame.symm⟩
  have hapart : ∀ a ∈ s.live, ∀ b ∈ s.live, s.Parted a b → ∀ x : Access g,
      a.region.rings g grid (b.region.access grid s.tree x).2 = a.region.rings g grid s.tree := by
    intro a ha b hb hparted
    have hne : a.region.inode ≠ b.region.inode :=
      fun hsame => (hs.files a ha b hb).mp hsame hparted
    exact rings_access_of_ne hne.symm
  cases hs.standing with
  | absent howners hvacant _ =>
    have hexists := hvacant.pathExists
    refine ⟨by simp [howners], by simp [howners, hexists], by simp [howners], by simp [hexists],
      ?_, ?_, hrelease_other, hrelease_owner, hobserve, hapart⟩
    · simp only [attach, Tree.openExisting, hvacant.find, hexists]
      rfl
    · rw [setUp_of_vacant _ _ hvacant, if_pos hs.limit, hexists]
      exact ⟨_, rfl, rfl⟩
  | @present o howners hfile hlast =>
    have hexists : s.tree.pathExists cwd path = true := by
      rw [Tree.pathExists, hfile.find]
      rfl
    obtain ⟨ho, -⟩ := mem_owners.mp (howners ▸ List.mem_singleton_self o)
    obtain ⟨hattach, -⟩ := hs.attached howners hfile hlast
    refine ⟨by simp [howners], by simp [howners, hexists], ?_, fun _ => ?_, ?_, ?_,
      hrelease_other, hrelease_owner, hobserve, hapart⟩
    · rw [howners]
      exact List.forall_mem_singleton.mpr hfile.find
    · simp only [Tree.fileSize?, hfile.find, (hs.handles o ho).size]
    · rw [hattach, hexists]
      rfl
    · rw [setUp_of_exists hfile.createNew, hattach, hexists]
      exact ⟨_, rfl, rfl⟩

/-- Whatever happens to the region of a path at which nothing was, there is an owner exactly as
long as there is a file, and two handles observe each other unless an owner was released between
their openings. -/
theorem orderly_through {cwd : Location} {path : Bytes} {place : Place} {t : Tree}
    (ht : t.Vacant cwd path place) (hlimit : size g grid ≤ t.growthLimit)
    (calls : List (Call g)) : (through grid cwd path t calls).Orderly g grid cwd path :=
  (sound_through ht hlimit calls).orderly

/-- The second handle outlives the first, which is the owner; the third allocates anew, and the
fourth attaches to what the third allocated. -/
def relay : List (Call quads) :=
  [.setUp, .attach, .access 0 (.ring ⟨0, 1⟩ (.push (Packet.zero quads))), .release 0, .setUp,
    .attach, .access 1 .reset]

theorem orderly_through_of_relay :
    Tree.empty.Vacant [] regionName ⟨0, Bytes.ofText "region"⟩ ∧
      size quads fourByFour ≤ Tree.empty.growthLimit ∧
      (through fourByFour [] regionName Tree.empty relay).Orderly quads fourByFour [] regionName :=
  have hlimit : size quads fourByFour ≤ Tree.empty.growthLimit := by decide +kernel
  ⟨Tree.vacant_empty, hlimit, orderly_through Tree.vacant_empty hlimit relay⟩

end Scene

end TraceRing.Region
