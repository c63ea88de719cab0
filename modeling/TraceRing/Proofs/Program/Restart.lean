import TraceRing.Proofs.Program.Regions

/-!
# Stopping and starting again

A program that attached to a region leaves its file behind when it stops, with every packet it did
not move (`Run.Keeps`). The next program to attach sets the file to zeros before it looks at the
rings: what was left in them is lost (`Run.Forgets`).
-/

namespace TraceRing.Program

open Files (Contents Tree Node Name Place Opened)

namespace Run

variable {h : Host} {o : Options}

/-! ## Stopping -/

/-- What work leaves in the files of a session that attached to its region: all names, the size of
the region's file, and of every ring the packets that did not go to the sink of its core. They are
the last of those that waited, in their order, and in their slots. -/
structure Keeps (h : Host) (o : Options) (s : Session h.geometry) (before after : Tree) : Prop where
  names : after.directories = before.directories
  size : (after.read s.region.inode).size = (before.read s.region.inode).size
  rings : ∀ (place : Nat) (ring : Ring h.geometry),
    (s.region.rings h.geometry h.grid before)[place]? = some ring →
    ∃ (n : Nat) (l : Lane h.geometry) (bytes : Bytes), n ≤ ring.backlog ∧
      (s.region.rings h.geometry h.grid after)[place]? = some (ring.released n) ∧
      (ring.released n).pending = ring.pending.drop n ∧
      (pass h o s before).lanes[place]? = some l ∧
      l.sink.received = stream (ring.pending.take n) ++ bytes ∧
      (bytes = [] ∨ IsCut bytes ring.pending n)

theorem keeps_settled {s : Session h.geometry} {t : Tree} (hs : s.Sound t) (o : Options) :
    Keeps h o s t (settled h o s t).1 := by
  have hframe := Streams.appendAll_frame
    (s.region.storeRings t ((pass h o s t).lanes.map Lane.ring)) s.writers (pass h o s t).lanes
  refine ⟨hframe.1, by rw [hs.read_settled o, Ring.size_storeAll], ?_⟩
  intro place ring hring
  rw [← hs.rings_reload, List.getElem?_map] at hring
  obtain ⟨before, hbefore, rfl⟩ := Option.map_eq_some_iff.mp hring
  obtain ⟨l, hl⟩ : ∃ l, (pass h o s t).lanes[place]? = some l := by
    have hlength : (pass h o s t).lanes.length = (reload h s t).length := Consumer.length_drain ..
    obtain ⟨hlt, -⟩ := List.getElem?_eq_some_iff.mp hbefore
    exact ⟨_, List.getElem?_eq_getElem (hlength ▸ hlt)⟩
  obtain ⟨first, hfirst, hcourse⟩ := Consumer.course_drain _ _ _ _ hl
  cases hbefore.symm.trans hfirst
  obtain ⟨hle, hrest, -, bytes, hreceived, hwhole, hcut⟩ := hcourse.took
  rw [hs.received_reload before (List.mem_of_getElem? hbefore), List.nil_append] at hreceived
  refine ⟨_, l, bytes, hle, ?_, Ring.pending_released hle, hl, hreceived, ?_⟩
  · rw [hs.rings_settled o, List.getElem?_map, hl, Option.map_some, hrest]
  · cases hfailed : (Consumer.drainTour h.grid o.verbose (reload h s t)
        s.flag.requested).failedAt place with
    | false => exact .inl (hwhole hfailed)
    | true => exact .inr (hcut hfailed)

/-- Work changes no file but by what it stores and appends, also if it ends the run. -/
theorem tree_after_work {p : Run h.geometry} {s : Session h.geometry}
    (hs : p.stage = .working s) (hattached : s.region.owner = false) (o : Options) :
    (Run.after h o p .work).tree = (settled h o s p.tree).1 := by
  have hcomes := comes_after hs o .work
  generalize Run.after h o p .work = stopped at hcomes ⊢
  cases hcomes with
  | worked => rfl
  | ended hrest => exact (contents_release h s.region _).2 hattached

/-! ## Starting -/

/-- A run that has written nothing, and whose rings hold nothing to write. -/
structure IsSilent (p : Run h.geometry) : Prop where
  writes : ∀ e ∈ p.events, e.isWrite = false
  blank : ∀ s, p.stage = .working s → s.Sound (h := h) p.tree ∧
    (p.tree.read s.region.inode).IsBlank

theorem isSilent_start (hfresh : h.IsFresh) (o : Options) (t : Tree) :
    (start h o t).IsSilent := by
  refine ⟨?_, fun s hs => sound_start hfresh o t hs⟩
  rcases start_cases h o t with ⟨tree, notices, report, hfailed⟩ | ⟨_, _, hsetup, hopened⟩
  · rw [hfailed]
    exact isWrite_failed tree notices report
  · exact (start_of_opened hsetup hopened).2.2

/-- Without a producer the rings stay empty. -/
theorem IsSilent.after {p : Run h.geometry} (hp : p.IsSilent) (o : Options)
    {what : Happening h.geometry} (hwhat : ∀ core op, what ≠ .ring core op) :
    (after h o p what).IsSilent := by
  cases hstage : p.stage with
  | exited code =>
    rw [after_exited hstage]
    exact hp
  | working s =>
    obtain ⟨hsound, hblank⟩ := hp.blank s hstage
    have hsound' : (Run.after h o p what).Sound :=
      Sound.after (fun s hs => (hp.blank s hs).1) o what
    have hcomes := comes_after hstage o what
    have hidle := (hsound.pass_of_blank hblank o).2
    generalize Run.after h o p what = next at hcomes hsound' ⊢
    cases hcomes with
    | ring core op => exact absurd rfl (hwhat core op)
    | removed hcontents =>
      refine ⟨hp.writes, fun s' hs' => ⟨hsound' s' hs', ?_⟩⟩
      cases hs'
      simpa only [Tree.read, hcontents] using hblank
    | signaled signal flag =>
      refine ⟨hp.writes, fun s' hs' => ⟨hsound' s' hs', ?_⟩⟩
      cases hs'
      exact hblank
    | worked =>
      refine ⟨List.forall_mem_append.mpr ⟨hp.writes, hidle.writes⟩,
        fun s' hs' => ⟨hsound' s' hs', ?_⟩⟩
      cases hs'
      rw [Run.resumed, hsound.read_settled o, hidle.rings, hsound.rings_reload,
        Region.rings_of_blank hblank]
      exact Ring.storeAll_of_blank hblank fun ring hring => List.eq_of_mem_replicate hring
    | ended hrest =>
      refine ⟨?_, by rintro _ ⟨⟩⟩
      exact List.forall_mem_append.mpr
        ⟨hp.writes, List.forall_mem_append.mpr ⟨hidle.writes, hrest⟩⟩

/-- Whatever the files hold when a program starts, its rings are empty when it gets to work, and
it writes nothing unless a producer does something. -/
structure Forgets (h : Host) (t : Tree) : Prop where
  rings : ∀ (o : Options) (s : Session h.geometry), (start h o t).stage = .working s →
    s.region.rings h.geometry h.grid (start h o t).tree =
      List.replicate h.grid.count (Ring.empty h.geometry)
  writes : ∀ (o : Options) (happenings : List (Happening h.geometry)),
    (∀ core op, .ring core op ∉ happenings) →
    ∀ e ∈ (through h o t happenings).events, e.isWrite = false

theorem forgets (hfresh : h.IsFresh) (t : Tree) : Forgets h t where
  rings o s hs := Region.rings_of_blank (sound_start hfresh o t hs).2
  writes o happenings hnone := by
    have hsilent : (through h o t happenings).IsSilent :=
      List.foldlRecOn happenings (Run.after h o) (isSilent_start hfresh o t)
        fun _ hp what hwhat => hp.after o fun core op heq => hnone core op (heq ▸ hwhat)
    exact hsilent.writes

/-! ## A program for one core -/

/-- A program for one core, with two slots. -/
def oneCore : Host :=
  ⟨⟨Grid.single, Geometry.pair, 0, 0, "r"⟩, [], fun _ => Streams.sinkOf⟩

def atRoot : Options :=
  ⟨false, "/"⟩

/-- The region's file of one core is there. -/
def mounted : Tree :=
  ⟨#[[(Bytes.ofText "dev", .directory 1)], [(Bytes.ofText "shm", .directory 2)],
      [(Bytes.ofText "r", .file 0)]],
    #[.replicate 328 0], none⟩

/-- The stream's file is there, too. -/
def mountedWithStream : Tree :=
  (mounted.addFile ⟨0, Bytes.ofText "stream-0-0"⟩).2

/-- One of the two trees, but for what is in the files. -/
structure IsMounted (t : Tree) : Prop where
  names : (t.directories = mounted.directories ∧ t.contents.size = 1) ∨
    t.directories = mountedWithStream.directories
  size : (t.read 0).size = 328

theorem isFresh_oneCore : oneCore.IsFresh := by
  intro core opened
  cases opened with
  | file inode => rfl
  | device d => cases d <;> rfl

theorem node_of_mounted {t : Tree} (ht : IsMounted t) :
    t.node? ⟨0, Bytes.ofText "dev"⟩ = some (.directory 1) ∧
      t.node? ⟨1, Bytes.ofText "shm"⟩ = some (.directory 2) ∧
      t.node? ⟨2, Bytes.ofText "r"⟩ = some (.file 0) := by
  rcases ht.names with ⟨hnames, -⟩ | hnames
  · simp only [Tree.node?, Tree.entries, hnames]
    decide +kernel
  · simp only [Tree.node?, Tree.entries, hnames]
    decide +kernel

theorem setUp_oneCore {t : Tree} (ht : IsMounted t) :
    Region.setUp oneCore.geometry oneCore.grid t oneCore.cwd oneCore.regionPath =
      ⟨.ok ⟨oneCore.regionPath, 0, false⟩, t, [.attachingRegion oneCore.regionPath]⟩ := by
  obtain ⟨hdev, hshm, hregion⟩ := node_of_mounted ht
  have hway : t.descend? [] [Bytes.ofText "dev", Bytes.ofText "shm"] = some [2, 1] := by
    simp [Tree.descend?, Files.Way.target, hdev, hshm]
  have hnode : ∀ target, t.node? ⟨Files.Way.target [2, 1], Bytes.ofText "r"⟩ ≠
      some (.link target) := by
    intro target hlink
    cases hregion.symm.trans hlink
  have hlocate : ∀ following, t.locate oneCore.cwd following oneCore.regionPath =
      .ok (.entry ⟨2, Bytes.ofText "r"⟩ false) := fun following =>
    Tree.locate_of_descend (by decide +kernel) (by decide +kernel) (by decide +kernel)
      (by decide +kernel) hway (by decide +kernel) hnode
  have hlength : ¬ Tree.nameLimit < (Bytes.ofText "r").length := by decide +kernel
  have hsize : Region.size oneCore.geometry oneCore.grid = 328 := by decide +kernel
  simp [Region.setUp, Region.attach, Tree.createNew, Tree.openExisting, Tree.find, hlocate,
    Tree.search, hlength, hregion, Tree.sizeOf, ht.size, hsize]

theorem openAll_oneCore {t : Tree} (ht : IsMounted t) :
    ∃ inode,
      (Streams.openAll oneCore.grid t oneCore.cwd (Bytes.ofText atRoot.directory)).result =
          .ok [.file inode] ∧
        (Streams.openAll oneCore.grid t oneCore.cwd
          (Bytes.ofText atRoot.directory)).tree.directories = mountedWithStream.directories ∧
        (Streams.openAll oneCore.grid t oneCore.cwd (Bytes.ofText atRoot.directory)).tree.read 0 =
          t.read 0 := by
  have hroot : Bytes.ofText atRoot.directory = [Files.slash] := by decide +kernel
  have hcores : oneCore.grid.cores = [⟨0, 0⟩] := by decide +kernel
  have hnames : Files.Path.names (Files.Path.join [Files.slash]
      (Bytes.ofText (Core.streamName ⟨0, 0⟩))) = [] ++ [Bytes.ofText "stream-0-0"] := by
    decide +kernel
  have hlength : ¬ Tree.nameLimit < (Bytes.ofText "stream-0-0").length := by decide +kernel
  have hlocate : (∀ target, t.node? ⟨Files.Way.target [], Bytes.ofText "stream-0-0"⟩ ≠
      some (.link target)) → t.locate oneCore.cwd .unlessSlash
        (Files.Path.join [Files.slash] (Bytes.ofText (Core.streamName ⟨0, 0⟩))) =
          .ok (.entry ⟨0, Bytes.ofText "stream-0-0"⟩ false) :=
    Tree.locate_of_descend (by decide +kernel) (by decide +kernel) hnames (by simp) rfl
      (by decide +kernel)
  simp only [Streams.openAll, hroot, Tree.makePath_root, hcores, Streams.create, Tree.create]
  rcases ht.names with ⟨hnames, hcount⟩ | hnames
  · have hnode : t.node? ⟨0, Bytes.ofText "stream-0-0"⟩ = none := by
      simp only [Tree.node?, Tree.entries, hnames]
      decide +kernel
    rw [hlocate fun target hlink => by cases hnode.symm.trans hlink]
    simp only [Tree.search, hlength, if_false, hnode]
    have hlt : 0 < t.contents.size := by omega
    refine ⟨(t.addFile _).1, rfl, ?_, (Tree.addFile_of_lt hlt _).2.2⟩
    simp only [Tree.addFile, Tree.addEntry, hnames, hcount]
    decide +kernel
  · have hnode : t.node? ⟨0, Bytes.ofText "stream-0-0"⟩ = some (.file 1) := by
      simp only [Tree.node?, Tree.entries, hnames]
      decide +kernel
    rw [hlocate fun target hlink => by cases hnode.symm.trans hlink]
    simp only [Tree.search, hlength, if_false, hnode]
    exact ⟨1, rfl, hnames, Tree.read_write_of_ne (by decide) _⟩

/-- The program attaches to the region's file and gets to work. -/
theorem start_oneCore {t : Tree} (ht : IsMounted t) :
    ∃ s : Session oneCore.geometry, (start oneCore atRoot t).stage = .working s ∧
      s.region = ⟨oneCore.regionPath, 0, false⟩ ∧ s.flag = ⟨true, false⟩ ∧
      (∀ l ∈ s.lanes, l.sink.flushError = none) ∧
      (start oneCore atRoot t).tree.directories = mountedWithStream.directories ∧
      ((start oneCore atRoot t).tree.read 0).size = 328 := by
  have hsetup := setUp_oneCore ht
  have hsize : (t.read 0).size = Region.size oneCore.geometry oneCore.grid := by
    rw [ht.size]
    decide +kernel
  obtain ⟨hcount, hsize', -⟩ := Region.read_zero (r := ⟨oneCore.regionPath, 0, false⟩) hsize
  have hzeroed : IsMounted ((⟨oneCore.regionPath, 0, false⟩ : Region).zero oneCore.geometry
      oneCore.grid t) := by
    refine ⟨?_, hsize'.trans (hsize.symm.trans ht.size)⟩
    rw [hcount]
    exact ht.names
  obtain ⟨inode, hresult, hdirectories, hread⟩ := openAll_oneCore hzeroed
  have hopened : (prepared oneCore atRoot t ⟨oneCore.regionPath, 0, false⟩).result =
      .ok [.file inode] := by
    rw [prepared, hsetup]
    exact hresult
  obtain ⟨htree, hstage, -⟩ := start_of_opened (by rw [hsetup]) hopened
  refine ⟨_, hstage, rfl, rfl, List.forall_mem_singleton.mpr rfl, ?_⟩
  rw [htree, prepared, hsetup]
  exact ⟨hdirectories, hread ▸ hzeroed.size⟩

/-- A packet of spaces. -/
def note : Packet Geometry.pair :=
  Vector.replicate _ 32

/-- A producer publishes a packet, and then the program is asked to shut down. -/
def interruption : List (Happening Geometry.pair) :=
  [.ring ⟨0, 0⟩ (.push note), .signal .interrupt]

theorem isMounted_mounted : IsMounted mounted :=
  ⟨.inl ⟨rfl, rfl⟩, by decide⟩

theorem interrupted : ∃ s : Session oneCore.geometry,
    (through oneCore atRoot mounted interruption).stage = .working s ∧
      s.region = ⟨oneCore.regionPath, 0, false⟩ ∧ s.flag.requested = true ∧
      (∀ l ∈ s.lanes, l.sink.flushError = none) ∧
      (through oneCore atRoot mounted interruption).tree.directories =
        mountedWithStream.directories ∧
      ((through oneCore atRoot mounted interruption).tree.read 0).size = 328 ∧
      s.region.rings oneCore.geometry oneCore.grid
        (through oneCore atRoot mounted interruption).tree =
          [(Ring.empty Geometry.pair).push note] := by
  obtain ⟨s, hs, hregion, hflag, hflush, hdirectories, hsize⟩ := start_oneCore isMounted_mounted
  obtain ⟨hsound, hblank⟩ := sound_start isFresh_oneCore atRoot mounted hs
  have hinode : s.region.inode = 0 := by rw [hregion]
  have hsize' : ((start oneCore atRoot mounted).tree.read s.region.inode).size =
      Region.size oneCore.geometry oneCore.grid := by
    rw [hinode, hsize]
    decide +kernel
  obtain ⟨hnames, -, hkept⟩ := Region.runRing_frame hsound.exists_file oneCore.grid ⟨0, 0⟩
    (.push note)
  have hplace : Region.place oneCore.grid ⟨0, 0⟩ = .ok 0 := rfl
  have hrings := Region.rings_runRing hsize' hplace (.push note)
  have hthrough : through oneCore atRoot mounted interruption =
      ⟨(s.region.runRing oneCore.grid (start oneCore atRoot mounted).tree ⟨0, 0⟩
          (.push note)).2,
        (start oneCore atRoot mounted).events,
        .working { s with flag := ⟨true, true⟩ }⟩ := by
    simp only [through, interruption, List.foldl, Run.after, hs, ShutdownFlag.deliver, hflag,
      if_true]
    rfl
  rw [hthrough]
  refine ⟨_, rfl, hregion, rfl, hflush, hnames.trans hdirectories, ?_, ?_⟩
  · rw [hinode] at hkept
    exact hkept.trans hsize
  · refine hrings.trans ?_
    rw [Region.rings_of_blank hblank]
    rfl

/-! ## A restart -/

/-- The packets that were not moved are left in the region when a program stops, and the next one
does not write them: it starts with empty rings. -/
theorem kept_until_restart (hfresh : h.IsFresh) (o : Options) (t : Tree)
    (happenings : List (Happening h.geometry)) {s : Session h.geometry}
    (hs : (through h o t happenings).stage = .working s) (hattached : s.region.owner = false) :
    let p := through h o t happenings
    let stopped := Run.after h o p .work
    Keeps h o s p.tree stopped.tree ∧ ∀ h' : Host, h'.IsFresh → Forgets h' stopped.tree := by
  refine ⟨?_, fun h' hfresh' => forgets hfresh' _⟩
  rw [tree_after_work hs hattached]
  exact keeps_settled (sound_through hfresh o t happenings s hs) o

theorem kept_until_restart_of_interrupted :
    ∃ s : Session oneCore.geometry, oneCore.IsFresh ∧
      (through oneCore atRoot mounted interruption).stage = .working s ∧
      s.region.owner = false ∧
      Keeps oneCore atRoot s (through oneCore atRoot mounted interruption).tree
        (Run.after oneCore atRoot (through oneCore atRoot mounted interruption) .work).tree ∧
      Forgets oneCore
        (Run.after oneCore atRoot (through oneCore atRoot mounted interruption) .work).tree := by
  obtain ⟨s, hs, hregion, -⟩ := interrupted
  have hattached : s.region.owner = false := by rw [hregion]
  obtain ⟨hkeeps, hforgets⟩ :=
    kept_until_restart isFresh_oneCore atRoot mounted interruption hs hattached
  exact ⟨s, isFresh_oneCore, hs, hattached, hkeeps, hforgets oneCore isFresh_oneCore⟩

/-- The first run ends well and leaves a packet in the region. The second attaches to the same
file and gets to work, and the packet is not among what it writes. -/
theorem lost_at_restart :
    let first := through oneCore atRoot mounted (interruption ++ [.work])
    let second := through oneCore atRoot first.tree [.work, .signal .interrupt, .work]
    first.exitCode? = some 0 ∧
      (Ring.load Geometry.pair (first.tree.read 0) 0).pending = [note] ∧
      (∃ s : Session oneCore.geometry, (start oneCore atRoot first.tree).stage = .working s ∧
        s.region = ⟨oneCore.regionPath, 0, false⟩) ∧
      ∀ offer, .write 0 offer ∉ second.events := by
  obtain ⟨s, hs, hregion, hrequested, hflush, hdirectories, hsize, hrings⟩ := interrupted
  have hsound := sound_through isFresh_oneCore atRoot mounted interruption s hs
  have hattached : s.region.owner = false := by rw [hregion]
  have hinode : s.region.inode = 0 := by rw [hregion]
  intro first second
  have hfirst : first =
      Run.after oneCore atRoot (through oneCore atRoot mounted interruption) .work := rfl
  have htree : first.tree =
      (settled oneCore atRoot s (through oneCore atRoot mounted interruption).tree).1 :=
    tree_after_work hs hattached atRoot
  -- the request comes before the program gets to work, so it moves nothing
  have hkept : s.region.rings oneCore.geometry oneCore.grid first.tree =
      [(Ring.empty Geometry.pair).push note] := by
    rw [htree, hsound.rings_settled, pass_of_requested hrequested, hsound.rings_reload, hrings]
  have hmounted : IsMounted first.tree := by
    obtain ⟨hnames, hsize', -⟩ := keeps_settled hsound atRoot
    rw [hinode] at hsize'
    rw [htree]
    exact ⟨.inr (hnames.trans hdirectories), hsize'.trans hsize⟩
  refine ⟨?_, ?_, ?_, ?_⟩
  · have hstage : first.stage = .exited 0 := by
      simp only [hfirst, Run.after, hs]
      exact stage_work_of_requested hrequested hflush atRoot _
    rw [exitCode?, hstage]
  · have hring : Ring.load Geometry.pair (first.tree.read 0) 0 =
        (Ring.empty Geometry.pair).push note := by
      rw [Region.rings, hinode] at hkept
      exact (List.cons.inj hkept).1
    rw [hring]
    decide +kernel
  · obtain ⟨s', hs', hregion', -⟩ := start_oneCore hmounted
    exact ⟨s', hs', hregion'⟩
  · intro offer hwrite
    have hsilent := (forgets isFresh_oneCore first.tree).writes atRoot
      [.work, .signal .interrupt, .work] (by simp) _ hwrite
    cases hsilent

end Run

end TraceRing.Program
