import TraceRing.Proofs.Files.Directories
import TraceRing.Proofs.Program.Restart
import TraceRing.Proofs.Region.Setups

/-!
# The end of a run

A run may fail when it sets up its region, or when it opens its streams, and the work may end in a
request to shut down or in a write that fails. On each of these paths the region is released: a
file that the run made is gone afterwards, and one that was there before is still there
(`Run.tornDown`). Once the work has begun every stream is flushed once, and the exit code tells
whether anything failed.

Nothing keeps the streams apart from the region: the trace directory may be the one the region's
file is in, and a link may lead there. A stream that is created over the file empties it
(`Run.emptied_by_stream`). What becomes of work on a region whose file has lost its bytes is left
open here, for that is up to the machine.
-/

namespace TraceRing

open Files (Tree Location Opened Place)

/-! ## Opening streams -/

namespace Streams

/-- The files that are opened as streams, also if a later one cannot be. -/
def opens (t : Tree) (cwd : Location) (directory : Bytes) : List Core → List Opened
  | [] => []
  | core :: rest =>
    match t.create cwd (Files.Path.join directory (Bytes.ofText core.streamName)) with
    | .error _ => []
    | .ok (opened, t) => opened :: opens t cwd directory rest

def opensAll (grid : Grid) (t : Tree) (cwd : Location) (directory : Bytes) : List Opened :=
  match t.makePath cwd directory with
  | (.error _, _) => []
  | (.ok (), t) => opens t cwd directory grid.cores

variable {t : Tree} {cwd : Location} {directory : Bytes} {cores : List Core} {grid : Grid}
  {opened : List Opened} {inode : Nat}

theorem opens_of_ok (h : (create t cwd directory cores).result = .ok opened) :
    opens t cwd directory cores = opened ∧ opened.length = cores.length := by
  induction cores generalizing t opened with
  | nil =>
    cases h
    exact ⟨rfl, rfl⟩
  | cons core rest ih =>
    simp only [create, opens] at h ⊢
    cases hfirst : t.create cwd (Files.Path.join directory (Bytes.ofText core.streamName)) with
    | error e =>
      rw [hfirst] at h
      cases h
    | ok made =>
      simp only [hfirst] at h ⊢
      cases hrest : (create made.2 cwd directory rest).result with
      | error e =>
        rw [hrest] at h
        cases h
      | ok later =>
        rw [hrest] at h
        cases h
        obtain ⟨hopens, hlength⟩ := ih hrest
        exact ⟨congrArg _ hopens, congrArg _ hlength⟩

theorem within_create (t : Tree) (cwd : Location) (directory : Bytes) (cores : List Core) :
    t.Within (create t cwd directory cores).tree := by
  induction cores generalizing t with
  | nil => exact .refl t
  | cons core rest ih =>
    simp only [create]
    split
    · exact .refl t
    · next hfirst => exact (Tree.within_create hfirst).trans (ih _)

/-- A file that is opened as a stream is emptied, and any other stays as it is. -/
theorem read_create_eq (hinode : inode < t.contents.size) :
    (create t cwd directory cores).tree.read inode =
      if .file inode ∈ opens t cwd directory cores then .empty else t.read inode := by
  induction cores generalizing t with
  | nil => rfl
  | cons core rest ih =>
    cases hfirst : t.create cwd (Files.Path.join directory (Bytes.ofText core.streamName)) with
    | error e => simp [create, opens, hfirst]
    | ok made =>
      obtain ⟨hlt, hkept⟩ := Tree.read_create hfirst hinode
      simp only [create, opens, hfirst, ih hlt, List.mem_cons]
      by_cases hmade : made.1 = .file inode
      · have hempty : made.2.read inode = .empty := hkept.resolve_left fun hother => hother.1 hmade
        simp [hmade, hempty]
      · simp [Ne.symm hmade, Tree.read_create_of_ne hfirst hinode hmade]

theorem within_openAll (grid : Grid) (t : Tree) (cwd : Location) (directory : Bytes) :
    t.Within (openAll grid t cwd directory).tree := by
  have hmade : t.Within (t.makePath cwd directory).2 :=
    Tree.within_makeDirectories cwd _ t directory
  rw [openAll]
  generalize t.makePath cwd directory = made at hmade ⊢
  obtain ⟨_ | _, t'⟩ := made
  · exact hmade
  · exact hmade.trans (within_create t' cwd directory grid.cores)

theorem opensAll_of_ok (h : (openAll grid t cwd directory).result = .ok opened) :
    opensAll grid t cwd directory = opened ∧ opened.length = grid.count := by
  rw [openAll] at h
  rw [opensAll, ← Grid.length_cores]
  generalize t.makePath cwd directory = made at h ⊢
  obtain ⟨_ | _, t'⟩ := made
  · cases h
  · exact opens_of_ok h

theorem read_openAll_eq (hinode : inode < t.contents.size) :
    (openAll grid t cwd directory).tree.read inode =
      if .file inode ∈ opensAll grid t cwd directory then .empty else t.read inode := by
  have hcontents : (t.makePath cwd directory).2.contents = t.contents :=
    Tree.contents_makeDirectories ..
  have hread : (t.makePath cwd directory).2.read inode = t.read inode := by
    rw [Tree.read, Tree.read, hcontents]
  rw [openAll, opensAll, ← hread]
  generalize t.makePath cwd directory = made at hcontents ⊢
  obtain ⟨_ | _, t'⟩ := made
  · rfl
  · exact read_create_eq (hcontents ▸ hinode)

end Streams

/-! ## Flushing -/

def Event.isFlush : Event → Bool
  | .flush _ => true
  | _ => false

theorem isFlush_logs (notices : List Log.Notice) :
    ∀ e ∈ notices.map Event.log, e.isFlush = false :=
  List.forall_mem_map.mpr fun _ _ => rfl

theorem count_flush_eq_zero {events : List Event} (h : ∀ e ∈ events, e.isFlush = false)
    (place : Nat) : events.count (.flush place) = 0 :=
  List.count_eq_zero.mpr fun hmem => Bool.noConfusion (h _ hmem)

namespace Consumer

variable {g : Geometry}

theorem isFlush_move (l : Lane g) (core : Core) (place : Nat) (verbose : Bool) :
    ∀ e ∈ (l.move core place verbose).events, e.isFlush = false := by
  have hevents : ∀ (notices : List Log.Notice) (offers : List Bytes),
      ∀ e ∈ notices.map Event.log ++ offers.map (Event.write place), e.isFlush = false :=
    fun notices offers => List.forall_mem_append.mpr
      ⟨isFlush_logs notices, List.forall_mem_map.mpr fun _ _ => rfl⟩
  simp only [Lane.move]
  split
  · split <;> split
    all_goals first | exact hevents [_] _ | exact hevents [] _
  · simp

theorem isFlush_reportText (l : Lane g) (core : Core) :
    ∀ e ∈ (l.reportText core).1, e.isFlush = false := by
  simp only [Lane.reportText]
  split
  · simp
  · exact isFlush_logs [_]

/-- Sweeps flush nothing. -/
theorem isFlush_sweepFrom (grid : Grid) (verbose : Bool) (place : Nat) (lanes : List (Lane g))
    (shutdown : Bool) :
    ∀ e ∈ (sweepFrom grid verbose place lanes shutdown).events, e.isFlush = false := by
  induction lanes generalizing place shutdown with
  | nil => simp [sweepFrom]
  | cons l rest ih =>
    simp only [sweepFrom]
    split
    · simp
    · split
      · exact isFlush_move l _ place verbose
      · exact List.forall_mem_append.mpr ⟨List.forall_mem_append.mpr
          ⟨isFlush_move l _ place verbose, isFlush_reportText _ _⟩, ih _ _⟩

theorem isFlush_drainFrom (grid : Grid) (verbose : Bool) (counts : List Nat) {events : List Event}
    (hevents : ∀ e ∈ events, e.isFlush = false) (lanes : List (Lane g)) (shutdown : Bool) :
    ∀ e ∈ (drainFrom grid verbose counts events lanes shutdown).events, e.isFlush = false := by
  have hsweep : ∀ e ∈ (sweep grid verbose lanes shutdown).events.reverse ++ events,
      e.isFlush = false :=
    List.forall_mem_append.mpr
      ⟨fun e he => isFlush_sweepFrom _ _ _ _ _ e (List.mem_reverse.mp he), hevents⟩
  fun_induction drainFrom grid verbose counts events lanes shutdown with
  | case1 => exact fun e he => hsweep e (List.mem_reverse.mp he)
  | case2 => exact fun e he => hsweep e (List.mem_reverse.mp he)
  | case3 counts events lanes shutdown s events' n hresult ih =>
    refine ih hsweep ?_
    exact List.forall_mem_append.mpr
      ⟨fun e he => isFlush_sweepFrom _ _ _ _ _ e (List.mem_reverse.mp he), hsweep⟩

theorem isFlush_sweepOn (grid : Grid) (verbose : Bool) (lanes : List (Lane g)) (shutdown : Bool) :
    ∀ e ∈ (sweepOn grid verbose lanes shutdown).events, e.isFlush = false :=
  isFlush_drainFrom grid verbose [] (by simp) lanes shutdown

/-- At the end every sink is flushed once. -/
theorem count_flush_finishFrom (grid : Grid) (place : Nat) (lanes : List (Lane g)) (q : Nat) :
    (finishFrom grid place lanes).2.count (.flush q) =
      if place ≤ q ∧ q < place + lanes.length then 1 else 0 := by
  induction lanes generalizing place with
  | nil =>
    rw [if_neg (by simp only [List.length_nil]; omega)]
    rfl
  | cons l rest ih =>
    have hfirst : (l.closing (grid.coreAt place) place).count (.flush q) =
        if place = q then 1 else 0 := by
      rw [Lane.closing]
      cases l.complaint (grid.coreAt place) <;> simp [List.count_cons]
    rw [events_finishFrom_cons, List.count_append, hfirst, ih, List.length_cons]
    split <;> split <;> split <;> omega

end Consumer

/-! ## The region of a run -/

namespace Region

variable {g : Geometry} {grid : Grid} {t u : Tree} {cwd : Location} {path : Bytes} {r : Region}

/-- The path leads to the file of a region; if the region is owned, the file stands at the end of
the path. -/
structure Stands (cwd : Location) (path : Bytes) (t : Tree) (r : Region) : Prop where
  path_eq : r.path = path
  found : t.find cwd path = .ok (.file r.inode)
  own : r.owner = true → ∃ place, t.HasFile cwd path place r.inode

namespace Stands

theorem mono (h : r.Stands cwd path t) (hwithin : t.Within u) : r.Stands cwd path u where
  path_eq := h.path_eq
  found := Tree.find_mono h.found hwithin
  own howner := (h.own howner).imp fun _ hfile => hfile.mono hwithin

/-- What was removed did not lie on the path. -/
theorem of_within (h : r.Stands cwd path t) (hwithin : u.Within t)
    (hfind : u.find cwd path = t.find cwd path) : r.Stands cwd path u where
  path_eq := h.path_eq
  found := hfind.trans h.found
  own howner := (h.own howner).imp fun _ hfile => hfile.of_within hwithin (hfind.trans h.found)

theorem of_setUp (ht : t.IsClosed) (h : (setUp g grid t cwd path).result = .ok r) :
    r.Stands cwd path (setUp g grid t cwd path).tree := by
  obtain ⟨place, hvacant, rfl, htree⟩ | ⟨inode, hfind, -, rfl, htree⟩ := setUp_cases ht h
  · have hfile := hvacant.addZeros (size g grid)
    rw [htree]
    exact ⟨rfl, hfile.find, fun _ => ⟨place, hfile⟩⟩
  · rw [htree]
    exact ⟨rfl, hfind, by simp⟩

/-- The owner removes the file, and everybody else leaves it. -/
theorem release {h : Program.Host} (hr : r.Stands h.cwd h.regionPath t) {n : Nat}
    (hsize : (t.read r.inode).size = n) :
    (r.owner = true →
        (Program.Run.release h r t).1.pathExists h.cwd h.regionPath = false) ∧
      (r.owner = false →
        (Program.Run.release h r t).1.fileSize? h.cwd h.regionPath = some n) := by
  constructor
  · intro howner
    obtain ⟨place, hfile⟩ := hr.own howner
    simp only [Program.Run.release, Region.release, howner, if_true, hr.path_eq, hfile.remove]
    exact hfile.dropEntry.pathExists
  · intro hother
    rw [(Program.Run.contents_release h r t).2 hother]
    exact Tree.fileSize?_eq_some_iff.mpr ⟨r.inode, hr.found, hsize⟩

end Stands

/-- Where a file was, a region is attached to it. -/
theorem owner_of_fileSize (ht : t.IsClosed) (h : (setUp g grid t cwd path).result = .ok r)
    {n : Nat} (hsize : t.fileSize? cwd path = some n) : r.owner = false := by
  obtain ⟨place, hvacant, rfl, -⟩ | ⟨inode, -, -, rfl, -⟩ := setUp_cases ht h
  · simp only [Tree.fileSize?, hvacant.find] at hsize
    cases hsize
  · rfl

end Region

namespace Program.Run

variable {h : Host} {o : Options} {t : Tree} {r : Region} {s : Session h.geometry}
  {happenings : List (Happening h.geometry)} {code : Nat}

/-- The file of a region that was owned is gone, and that of one that was not is there, with so
many bytes. -/
def Leaves (h : Host) (r : Region) (size : Nat) (t : Tree) : Prop :=
  (r.owner = true → t.pathExists h.cwd h.regionPath = false) ∧
    (r.owner = false → t.fileSize? h.cwd h.regionPath = some size)

/-! ## The last work -/

/-- Consumption ends with a request to shut down, and then every stream can be flushed. -/
def EndsWell (h : Host) (o : Options) (s : Session h.geometry) (t : Tree) : Prop :=
  (pass h o s t).result = .ok .shutdown ∧
    ∀ l ∈ (pass h o s t).lanes, l.sink.flushError = none

theorem conclude_eq (s : Session h.geometry) (t : Tree) (result : Except TransportFailure Unit) :
    ∃ code last, conclude h o s t result =
        ⟨(release h s.region t).1, (Consumer.finish h.grid s.lanes).2 ++ List.map Event.log last,
          .exited code⟩ ∧
      ((result = .ok () ∧ ∀ l ∈ s.lanes, l.sink.flushError = none) → code = 0) ∧
      (¬ (result = .ok () ∧ ∀ l ∈ s.lanes, l.sink.flushError = none) → code = 1) := by
  refine ⟨_, _, rfl, ?_⟩
  cases result with
  | error e => exact ⟨by rintro ⟨⟨⟩, -⟩, fun _ => rfl⟩
  | ok =>
    cases hfinish : (Consumer.finish h.grid s.lanes).1 with
    | error e =>
      refine ⟨fun hwell => ?_, fun _ => rfl⟩
      have hcounts := (Consumer.finishFrom_eq_ok_iff h.grid 0 s.lanes).mpr ⟨hwell.2, rfl⟩
      cases hfinish.symm.trans hcounts
    | ok counts =>
      obtain ⟨hflush, -⟩ := (Consumer.finishFrom_eq_ok_iff h.grid 0 s.lanes).mp hfinish
      exact ⟨fun _ => rfl, fun hbad => absurd ⟨rfl, hflush⟩ hbad⟩

/-- Work that ends a run flushes the streams and releases the region, and the exit code tells how
it went. -/
theorem work_of_exited (hexited : (work h o s t).stage = .exited code) :
    (work h o s t).tree = (release h s.region (settled h o s t).1).1 ∧
      (∃ first last, (work h o s t).events = (pass h o s t).events ++ (List.map Event.log first ++
        ((Consumer.finish h.grid (resumed h o s t).lanes).2 ++ List.map Event.log last))) ∧
      (EndsWell h o s t → code = 0) ∧ (¬ EndsWell h o s t → code = 1) := by
  have hlanes : (∀ l ∈ (resumed h o s t).lanes, l.sink.flushError = none) ↔
      ∀ l ∈ (pass h o s t).lanes, l.sink.flushError = none := List.forall_mem_map
  cases hpass : (pass h o s t).result with
  | ok stop =>
    cases stop with
    | idle =>
      rw [work_of_idle hpass] at hexited
      cases hexited
    | shutdown =>
      obtain ⟨code', last, hconclude, hwell, hbad⟩ :=
        conclude_eq (o := o) (resumed h o s t) (settled h o s t).1 (.ok ())
      rw [work_of_shutdown hpass, hconclude] at hexited ⊢
      cases hexited
      simp only [EndsWell, hpass, true_and, hlanes] at hwell hbad ⊢
      exact ⟨rfl, ⟨[_], last, rfl⟩, hwell, hbad⟩
  | error e =>
    obtain ⟨code', last, hconclude, -, hbad⟩ :=
      conclude_eq (o := o) (resumed h o s t) (settled h o s t).1 (.error e)
    rw [work_of_error hpass, hconclude] at hexited ⊢
    cases hexited
    refine ⟨rfl, ⟨[], last, rfl⟩, ?_, fun _ => hbad (by simp)⟩
    rintro ⟨hshutdown, -⟩
    rw [hpass] at hshutdown
    cases hshutdown

/-! ## At work -/

/-- The files that a run opens as streams, once its region is set up. -/
def streamFiles (h : Host) (o : Options) (t : Tree) (r : Region) : List Opened :=
  Streams.opensAll h.grid
    (r.zero h.geometry h.grid (Region.setUp h.geometry h.grid t h.cwd h.regionPath).tree) h.cwd
    (Bytes.ofText o.directory)

/-- No stream is created over the region's file. -/
def IsSpared (h : Host) (o : Options) (t : Tree) (r : Region) : Prop :=
  .file r.inode ∉ streamFiles h o t r

instance (h : Host) (o : Options) (t : Tree) (r : Region) : Decidable (IsSpared h o t r) :=
  inferInstanceAs (Decidable (_ ∉ _))

/-- Nobody creates or removes files at the region's path: what others remove leaves the path
leading where it led. -/
def Undisturbed (h : Host) (o : Options) (t : Tree) (happenings : List (Happening h.geometry)) :
    Prop :=
  ∀ before path u (s : Session h.geometry), before ++ [.remove path] <+: happenings →
    (through h o t before).stage = .working s →
    (through h o t before).tree.remove h.cwd path = .ok u →
    u.find h.cwd h.regionPath = (through h o t before).tree.find h.cwd h.regionPath

/-- A run at work: its region stands, and nothing was flushed. -/
structure AtWork (r : Region) (p : Run h.geometry) (s : Session h.geometry) : Prop where
  stage : p.stage = .working s
  region_eq : s.region = r
  stands : r.Stands h.cwd h.regionPath p.tree
  length_lanes : s.lanes.length = h.grid.count
  size : (p.tree.read r.inode).size = Region.size h.geometry h.grid
  streams : .file r.inode ∉ s.writers.map Streams.Writer.opened
  quiet : ∀ e ∈ p.events, e.isFlush = false

theorem isFlush_start (h : Host) (o : Options) (t : Tree) :
    ∀ e ∈ (start h o t).events, e.isFlush = false := by
  simp only [start]
  split
  · exact isFlush_logs _
  · split
    · exact isFlush_logs _
    · exact List.forall_mem_append.mpr ⟨isFlush_logs _, List.forall_mem_singleton.mpr rfl⟩

/-- What a run does to the region's file before it gets to work. -/
theorem prepared_frame (ht : t.IsClosed)
    (hsetup : (Region.setUp h.geometry h.grid t h.cwd h.regionPath).result = .ok r) :
    r.Stands h.cwd h.regionPath (prepared h o t r).tree ∧
      ((prepared h o t r).tree.read r.inode).size =
        if IsSpared h o t r then Region.size h.geometry h.grid else 0 := by
  have hsize := Region.size_of_setUp hsetup
  obtain ⟨hcount, hsize', -⟩ := Region.read_zero hsize
  have hlt := Region.lt_of_size hsize'
  refine ⟨?_, ?_⟩
  · refine (Region.Stands.of_setUp ht hsetup).mono (Tree.Within.trans ?_
      (Streams.within_openAll h.grid _ h.cwd (Bytes.ofText o.directory)))
    exact Tree.within_of_directories rfl
  · have hread : (prepared h o t r).tree.read r.inode =
        if .file r.inode ∈ streamFiles h o t r then .empty
        else (r.zero h.geometry h.grid
          (Region.setUp h.geometry h.grid t h.cwd h.regionPath).tree).read r.inode :=
      Streams.read_openAll_eq hlt
    by_cases hspared : IsSpared h o t r
    · rw [if_pos hspared, hread, if_neg hspared, hsize']
    · rw [if_neg hspared, hread, if_pos (Decidable.not_not.mp hspared)]
      rfl

theorem atWork_start (ht : t.IsClosed)
    (hsetup : (Region.setUp h.geometry h.grid t h.cwd h.regionPath).result = .ok r)
    (hspared : IsSpared h o t r) {opened : List Opened}
    (hopened : (prepared h o t r).result = .ok opened) :
    ∃ s, AtWork r (start h o t) s := by
  obtain ⟨htree, hstage, -⟩ := start_of_opened hsetup hopened
  obtain ⟨hstands, hsize⟩ := prepared_frame (o := o) ht hsetup
  rw [if_pos hspared] at hsize
  obtain ⟨hopens, hlength⟩ := Streams.opensAll_of_ok hopened
  refine ⟨_, hstage, rfl, htree ▸ hstands, ?_, htree ▸ hsize, ?_, isFlush_start h o t⟩
  · simp [opening, Region.rings, Ring.loadAll, hlength]
  · rw [opening, Streams.map_opened_new, ← hopens]
    exact hspared

namespace AtWork

variable {p : Run h.geometry} (hp : AtWork r p s)
include hp

theorem length_pass (o : Options) : (pass h o s p.tree).lanes.length = h.grid.count := by
  have hreload : (reload h s p.tree).length = h.grid.count := by
    simp [reload, Region.rings, Ring.loadAll, hp.length_lanes]
  exact (Consumer.length_drain ..).trans hreload

/-- Work stores the rings and appends to streams: no name is changed, and not the size of the
region's file. -/
theorem settled_frame (o : Options) :
    (settled h o s p.tree).1.directories = p.tree.directories ∧
      ((settled h o s p.tree).1.read r.inode).size = Region.size h.geometry h.grid ∧
      (settled h o s p.tree).2.map Streams.Writer.opened =
        s.writers.map Streams.Writer.opened := by
  have hframe := Streams.appendAll_frame
    (s.region.storeRings p.tree ((pass h o s p.tree).lanes.map Lane.ring)) s.writers
    (pass h o s p.tree).lanes
  refine ⟨hframe.1, ?_, hframe.2.2⟩
  rw [settled, Streams.read_appendAll hp.streams, hp.region_eq,
    Region.read_storeRings (Region.lt_of_size hp.size), Ring.size_storeAll, hp.size]

theorem after_work (o : Options) : Run.after h o p .work =
    ⟨(work h o s p.tree).tree, p.events ++ (work h o s p.tree).events,
      (work h o s p.tree).stage⟩ := by
  simp only [Run.after, hp.stage]

/-- A run goes on, or it exits by work. -/
theorem after (what : Happening h.geometry)
    (hundisturbed : ∀ path u, what = .remove path → p.tree.remove h.cwd path = .ok u →
      u.find h.cwd h.regionPath = p.tree.find h.cwd h.regionPath) :
    (∃ s', AtWork r (Run.after h o p what) s') ∨
      what = .work ∧ ∃ code, (Run.after h o p what).stage = .exited code := by
  cases what with
  | ring core op =>
    obtain ⟨hdirectories, -, hsize⟩ :=
      Region.runRing_frame (Region.lt_of_size hp.size) h.grid core op
    refine .inl ⟨s, ?_⟩
    simp only [Run.after, hp.stage, hp.region_eq]
    exact { hp with
      stage := rfl
      stands := hp.stands.mono (Tree.within_of_directories hdirectories)
      size := hsize.trans hp.size }
  | remove path =>
    simp only [Run.after, hp.stage]
    cases hremove : p.tree.remove h.cwd path with
    | error e => exact .inl ⟨s, hp⟩
    | ok u =>
      refine .inl ⟨s, { hp with
        stage := rfl
        stands := hp.stands.of_within (Tree.within_remove hremove)
          (hundisturbed path u rfl hremove)
        size := ?_ }⟩
      simp only [Tree.read, Tree.contents_remove hremove]
      exact hp.size
  | signal signal =>
    simp only [Run.after, hp.stage]
    cases s.flag.deliver signal with
    | none => exact .inl ⟨s, hp⟩
    | some flag =>
      exact .inl ⟨{ s with flag := flag }, rfl, hp.region_eq, hp.stands, hp.length_lanes, hp.size,
        hp.streams, hp.quiet⟩
  | work =>
    rcases work_cases h o s p.tree with hwork | ⟨code, rest, hwork, -⟩
    · obtain ⟨hdirectories, hsize, hopened⟩ := hp.settled_frame o
      rw [hp.after_work o, hwork]
      refine .inl ⟨resumed h o s p.tree, rfl, hp.region_eq, ?_, ?_, hsize, ?_, ?_⟩
      · exact hp.stands.mono (Tree.within_of_directories hdirectories)
      · simp only [resumed, List.length_map, hp.length_pass o]
      · rw [resumed, hopened]
        exact hp.streams
      · exact List.forall_mem_append.mpr ⟨hp.quiet, Consumer.isFlush_sweepOn _ _ _ _⟩
    · rw [hp.after_work o, hwork]
      exact .inr ⟨rfl, code, rfl⟩

/-- What the last work leaves: every stream was flushed once, and the region is released. -/
theorem ended (hexited : (Run.after h o p .work).stage = .exited code) :
    (∀ place < h.grid.count, (Run.after h o p .work).events.count (.flush place) = 1) ∧
      (EndsWell h o s p.tree → code = 0) ∧ (¬ EndsWell h o s p.tree → code = 1) ∧
      Leaves h r (Region.size h.geometry h.grid) (Run.after h o p .work).tree := by
  obtain ⟨hdirectories, hsize, -⟩ := hp.settled_frame o
  have hstands := hp.stands.mono (Tree.within_of_directories hdirectories)
  rw [hp.after_work o] at hexited ⊢
  obtain ⟨htree, ⟨first, last, hevents⟩, hwell, hbad⟩ := work_of_exited hexited
  refine ⟨fun place hplace => ?_, hwell, hbad, ?_⟩
  · have hpass : (pass h o s p.tree).events.count (.flush place) = 0 :=
      count_flush_eq_zero (Consumer.isFlush_sweepOn _ _ _ _) place
    simp only [hevents, List.count_append, count_flush_eq_zero hp.quiet, hpass,
      count_flush_eq_zero (isFlush_logs _), Consumer.finish, Consumer.count_flush_finishFrom,
      resumed, List.length_map, hp.length_pass o]
    rw [if_pos ⟨Nat.zero_le _, by omega⟩]
  · rw [htree, hp.region_eq]
    exact hstands.release hsize

end AtWork

/-! ## Whole runs -/

theorem foldl_exited {p : Run h.geometry} (hp : p.stage = .exited code) (o : Options)
    (happenings : List (Happening h.geometry)) : happenings.foldl (Run.after h o) p = p := by
  induction happenings with
  | nil => rfl
  | cons what rest ih => rw [List.foldl_cons, after_exited hp, ih]

/-- A run that was at work and exited did so by work. -/
theorem exists_last_work (before : List (Happening h.geometry)) {rest : List (Happening h.geometry)}
    (hundisturbed : Undisturbed h o t (before ++ rest)) (hp : AtWork r (through h o t before) s)
    (hexited : (through h o t (before ++ rest)).stage = .exited code) :
    ∃ last s', last ++ [.work] <+: before ++ rest ∧ AtWork r (through h o t last) s' ∧
      through h o t (before ++ rest) = Run.after h o (through h o t last) .work := by
  induction rest generalizing before s with
  | nil =>
    rw [List.append_nil, hp.stage] at hexited
    cases hexited
  | cons what rest ih =>
    have hsplit : before ++ what :: rest = before ++ [what] ++ rest := by simp
    have hprefix : before ++ [what] <+: before ++ what :: rest :=
      hsplit ▸ List.prefix_append _ _
    have hnext : through h o t (before ++ [what]) =
        Run.after h o (through h o t before) what := by
      simp only [through, List.foldl_append, List.foldl_cons, List.foldl_nil]
    rcases hp.after what (fun path u hwhat => hundisturbed before path u s
      (hwhat ▸ hprefix) hp.stage) with ⟨s', hs'⟩ | ⟨rfl, code', hcode⟩
    · rw [hsplit] at hundisturbed hexited ⊢
      exact ih (before ++ [what]) hundisturbed (hnext ▸ hs') hexited
    · refine ⟨before, s, hprefix, hp, ?_⟩
      rw [through, List.foldl_append, List.foldl_cons]
      exact foldl_exited hcode o rest

/-- A run that got to work has flushed each of its streams once, and its exit code tells how the
last work ended. -/
structure Consumed (h : Host) (o : Options) (t : Tree) (happenings : List (Happening h.geometry))
    (opened : List Opened) (code : Nat) : Prop where
  length_opened : opened.length = h.grid.count
  flushed : ∀ place < opened.length,
    (through h o t happenings).events.count (.flush place) = 1
  exited : ∃ last s, last ++ [.work] <+: happenings ∧ (through h o t last).stage = .working s ∧
    through h o t happenings = Run.after h o (through h o t last) .work ∧
    (EndsWell h o s (through h o t last).tree → code = 0) ∧
    (¬ EndsWell h o s (through h o t last).tree → code = 1)

/-- What is left of a run that has exited. -/
structure TornDown (h : Host) (o : Options) (t : Tree) (happenings : List (Happening h.geometry))
    (code : Nat) : Prop where
  /-- A run without a region leaves names and files as they were. -/
  refused : ∀ e, (Region.setUp h.geometry h.grid t h.cwd h.regionPath).result = .error e →
    code = 1 ∧ (through h o t happenings).tree.directories = t.directories ∧
      ∀ inode < t.contents.size, (through h o t happenings).tree.read inode = t.read inode
  kept : t.fileSize? h.cwd h.regionPath = some (Region.size h.geometry h.grid) →
    (∀ r, (Region.setUp h.geometry h.grid t h.cwd h.regionPath).result = .ok r →
      IsSpared h o t r) →
    (through h o t happenings).tree.fileSize? h.cwd h.regionPath =
      some (Region.size h.geometry h.grid)
  /-- A run without its streams releases the region. Those it did open may have emptied the file. -/
  unopened : ∀ r e, (Region.setUp h.geometry h.grid t h.cwd h.regionPath).result = .ok r →
    (prepared h o t r).result = .error e →
    code = 1 ∧ Leaves h r (if IsSpared h o t r then Region.size h.geometry h.grid else 0)
      (through h o t happenings).tree
  consumed : ∀ r opened, (Region.setUp h.geometry h.grid t h.cwd h.regionPath).result = .ok r →
    (prepared h o t r).result = .ok opened → IsSpared h o t r →
    Leaves h r (Region.size h.geometry h.grid) (through h o t happenings).tree ∧
      Consumed h o t happenings opened code

theorem start_of_refused {e : TransportFailure}
    (hsetup : (Region.setUp h.geometry h.grid t h.cwd h.regionPath).result = .error e)
    (o : Options) :
    (start h o t).tree = (Region.setUp h.geometry h.grid t h.cwd h.regionPath).tree ∧
      (start h o t).stage = .exited 1 := by
  simp only [start, hsetup]
  exact ⟨rfl, rfl⟩

theorem start_of_unopened {e : TransportFailure}
    (hsetup : (Region.setUp h.geometry h.grid t h.cwd h.regionPath).result = .ok r)
    (hstreams : (prepared h o t r).result = .error e) :
    (start h o t).tree = (release h r (prepared h o t r).tree).1 ∧
      (start h o t).stage = .exited 1 := by
  rw [prepared] at hstreams
  simp only [start, hsetup, hstreams]
  exact ⟨rfl, rfl⟩

theorem tornDown_of_refused (ht : t.IsClosed) {e : TransportFailure}
    (hsetup : (Region.setUp h.geometry h.grid t h.cwd h.regionPath).result = .error e)
    (hexited : (through h o t happenings).stage = .exited code) :
    TornDown h o t happenings code := by
  obtain ⟨htree, hstage⟩ := start_of_refused hsetup o
  have hthrough : through h o t happenings = start h o t := foldl_exited hstage o happenings
  rw [hthrough, hstage] at hexited
  cases hexited
  obtain ⟨hdirectories, hread⟩ := Region.setUp_error ht hsetup
  have hnot : ∀ {r}, (Region.setUp h.geometry h.grid t h.cwd h.regionPath).result ≠ .ok r := by
    intro r hr
    cases hsetup.symm.trans hr
  refine ⟨fun _ _ => ?_, fun hsize _ => ?_, fun r _ hr => absurd hr hnot,
    fun r _ hr => absurd hr hnot⟩
  · rw [hthrough, htree]
    exact ⟨rfl, hdirectories, hread⟩
  · obtain ⟨inode, hfind, hsize'⟩ := Tree.fileSize?_eq_some_iff.mp hsize
    have hlt := Tree.lt_of_size_pos (hsize'.symm ▸ Region.size_pos h.geometry h.grid)
    rw [hthrough, htree]
    refine Tree.fileSize?_eq_some_iff.mpr
      ⟨inode, Tree.find_mono hfind (Tree.within_of_directories hdirectories), ?_⟩
    rw [hread inode hlt, hsize']

theorem tornDown_of_unopened (ht : t.IsClosed)
    (hsetup : (Region.setUp h.geometry h.grid t h.cwd h.regionPath).result = .ok r)
    {e : TransportFailure} (herror : (prepared h o t r).result = .error e)
    (hexited : (through h o t happenings).stage = .exited code) :
    TornDown h o t happenings code := by
  obtain ⟨hstands, hsize⟩ := prepared_frame (o := o) ht hsetup
  obtain ⟨htree, hstage⟩ := start_of_unopened hsetup herror
  have hthrough : through h o t happenings = start h o t := foldl_exited hstage o happenings
  have hleaves := hstands.release hsize
  rw [← htree, ← hthrough] at hleaves
  rw [hthrough, hstage] at hexited
  cases hexited
  refine ⟨fun e he => ?_, fun hsize hspared => ?_, fun r' e' hr' _ => ?_,
    fun r' opened hr' hopened => ?_⟩
  · cases hsetup.symm.trans he
  · have hleft := hleaves.2 (Region.owner_of_fileSize ht hsetup hsize)
    rwa [if_pos (hspared r hsetup)] at hleft
  · cases hsetup.symm.trans hr'
    exact ⟨rfl, hleaves⟩
  · cases hsetup.symm.trans hr'
    cases herror.symm.trans hopened

theorem tornDown_of_spared (ht : t.IsClosed) (hundisturbed : Undisturbed h o t happenings)
    (hsetup : (Region.setUp h.geometry h.grid t h.cwd h.regionPath).result = .ok r)
    (hspared : IsSpared h o t r) {opened : List Opened}
    (hopened : (prepared h o t r).result = .ok opened)
    (hexited : (through h o t happenings).stage = .exited code) :
    TornDown h o t happenings code := by
  obtain ⟨s, hs⟩ := atWork_start ht hsetup hspared hopened
  obtain ⟨last, s', hprefix, hlast, hthrough⟩ := exists_last_work [] hundisturbed hs hexited
  rw [List.nil_append] at hprefix hthrough
  rw [hthrough] at hexited
  obtain ⟨hflush, hwell, hbad, hleaves⟩ := hlast.ended hexited
  rw [← hthrough] at hleaves
  refine ⟨fun e he => ?_, fun hsize _ => hleaves.2 (Region.owner_of_fileSize ht hsetup hsize),
    fun r' e hr' herror => ?_, fun r' opened' hr' hopened' _ => ?_⟩
  · cases hsetup.symm.trans he
  · cases hsetup.symm.trans hr'
    cases hopened.symm.trans herror
  · cases hsetup.symm.trans hr'
    obtain ⟨-, hlength⟩ := Streams.opensAll_of_ok hopened'
    refine ⟨hleaves, hlength, ?_, last, s', hprefix, hlast.stage, hthrough, hwell, hbad⟩
    rw [hlength, hthrough]
    exact hflush

/-- However a run ends, it cleans up: a region it allocated is gone, one that was there stays, and
if it got to work all streams are flushed, and the exit code is 0 exactly if nothing failed. -/
theorem tornDown (ht : t.IsClosed) (hundisturbed : Undisturbed h o t happenings)
    (hexited : (through h o t happenings).stage = .exited code) :
    TornDown h o t happenings code := by
  cases hsetup : (Region.setUp h.geometry h.grid t h.cwd h.regionPath).result with
  | error e => exact tornDown_of_refused ht hsetup hexited
  | ok r =>
    cases hopened : (prepared h o t r).result with
    | error e => exact tornDown_of_unopened ht hsetup hopened hexited
    | ok opened =>
      by_cases hspared : IsSpared h o t r
      · exact tornDown_of_spared ht hundisturbed hsetup hspared hopened hexited
      · -- all streams are open, and one of them over the region's file: nothing is said of that
        refine ⟨fun e he => ?_, fun _ hall => absurd (hall r hsetup) hspared,
          fun r' e hr' herror => ?_, fun r' _ hr' _ hspared' => ?_⟩
        · cases hsetup.symm.trans he
        · cases hsetup.symm.trans hr'
          cases hopened.symm.trans herror
        · cases hsetup.symm.trans hr'
          exact absurd hspared' hspared

theorem isClosed_mounted : mounted.IsClosed := by
  apply Tree.isClosed_of_entries
  · decide
  · intro entries hentries e he number hnumber
    simp only [mounted, List.mem_cons, List.not_mem_nil, or_false] at hentries
    rcases hentries with rfl | rfl | rfl <;> obtain rfl := List.mem_singleton.mp he <;>
      cases hnumber <;> decide

theorem undisturbed_of_interruption :
    Undisturbed oneCore atRoot mounted (interruption ++ [.work]) := by
  intro before path u s hprefix
  have hmem : (.remove path : Happening Geometry.pair) ∈
      [.ring ⟨0, 0⟩ (.push note), .signal .interrupt, .work] :=
    hprefix.subset (List.mem_append_right before (List.mem_singleton_self _))
  simp at hmem

theorem isSpared_mounted : ∀ r,
    (Region.setUp oneCore.geometry oneCore.grid mounted oneCore.cwd oneCore.regionPath).result =
      .ok r → IsSpared oneCore atRoot mounted r := by
  intro r hr
  have hsetup := setUp_oneCore isMounted_mounted
  have hsize : (mounted.read 0).size = Region.size oneCore.geometry oneCore.grid := by
    rw [isMounted_mounted.size]
    decide +kernel
  rw [hsetup] at hr
  cases hr
  have hzero := Region.read_zero (r := ⟨oneCore.regionPath, 0, false⟩) hsize
  obtain ⟨inode, hopened, -, hread⟩ := openAll_oneCore (t := Region.zero
    ⟨oneCore.regionPath, 0, false⟩ oneCore.geometry oneCore.grid mounted)
    ⟨.inl ⟨rfl, hzero.1⟩, hzero.2.1.trans (hsize.symm.trans isMounted_mounted.size)⟩
  obtain ⟨hopens, -⟩ := Streams.opensAll_of_ok hopened
  obtain ⟨-, -, ⟨hother, -⟩ | hempty⟩ := Streams.read_openAll hopened
    (Region.lt_of_size hzero.2.1)
  · rw [IsSpared, streamFiles, hsetup, hopens]
    exact hother
  · have hnone := congrArg Files.Contents.size (hread.symm.trans hempty)
    exact absurd (hzero.2.1.symm.trans hnone) (Nat.ne_of_gt (Region.size_pos _ _))

/-- The program for one core attaches to the region's file, which no stream touches, and is asked
to shut down. -/
theorem tornDown_of_interruption :
    mounted.IsClosed ∧ Undisturbed oneCore atRoot mounted (interruption ++ [.work]) ∧
      (through oneCore atRoot mounted (interruption ++ [.work])).stage = .exited 0 ∧
      (∀ r, (Region.setUp oneCore.geometry oneCore.grid mounted oneCore.cwd
        oneCore.regionPath).result = .ok r → IsSpared oneCore atRoot mounted r) ∧
      TornDown oneCore atRoot mounted (interruption ++ [.work]) 0 := by
  obtain ⟨s, hs, -, hrequested, hflush, -⟩ := interrupted
  have hthrough : through oneCore atRoot mounted (interruption ++ [.work]) =
      Run.after oneCore atRoot (through oneCore atRoot mounted interruption) .work := rfl
  have hexited : (through oneCore atRoot mounted (interruption ++ [.work])).stage =
      .exited 0 := by
    simp only [hthrough, Run.after, hs]
    exact stage_work_of_requested hrequested hflush atRoot _
  exact ⟨isClosed_mounted, undisturbed_of_interruption, hexited, isSpared_mounted,
    tornDown isClosed_mounted undisturbed_of_interruption hexited⟩

/-! ### A stream over the region -/

/-- A program for two cores, whose region has the name of the first stream. -/
def twoCores : Host :=
  ⟨⟨⟨1, 2, Nat.one_pos, Nat.two_pos⟩, Geometry.pair, 0, 0, "stream-0-0"⟩, [],
    fun _ => Streams.sinkOf⟩

/-- The trace directory is the one the regions are in. -/
def besideRegion : Options :=
  ⟨false, "/dev/shm"⟩

/-- The region's file of two cores is there, and a directory where the second stream goes. -/
def crowded : Tree :=
  ⟨#[[(Bytes.ofText "dev", .directory 1)], [(Bytes.ofText "shm", .directory 2)],
      [(Bytes.ofText "stream-0-0", .file 0), (Bytes.ofText "stream-0-1", .directory 3)], []],
    #[.replicate 656 0], none⟩

theorem isClosed_crowded : crowded.IsClosed := by
  apply Tree.isClosed_of_entries
  · decide
  · intro entries hentries e he number hnumber
    simp only [crowded, List.mem_cons, List.not_mem_nil, or_false] at hentries
    rcases hentries with rfl | rfl | rfl | rfl
    · obtain rfl := List.mem_singleton.mp he
      cases hnumber
      decide
    · obtain rfl := List.mem_singleton.mp he
      cases hnumber
      decide
    · obtain rfl | rfl : e = _ ∨ e = _ := by simpa using he
      · cases hnumber
      · cases hnumber
        decide
    · cases he

theorem node_crowded {u : Tree} (hu : u.directories = crowded.directories) :
    u.node? ⟨0, Bytes.ofText "dev"⟩ = some (.directory 1) ∧
      u.node? ⟨1, Bytes.ofText "shm"⟩ = some (.directory 2) ∧
      u.node? ⟨2, Bytes.ofText "stream-0-0"⟩ = some (.file 0) ∧
      u.node? ⟨2, Bytes.ofText "stream-0-1"⟩ = some (.directory 3) := by
  simp only [Tree.node?, Tree.entries, hu]
  decide +kernel

/-- A stream's path leads to its name beside the region. -/
theorem locate_crowded {u : Tree} (hu : u.directories = crowded.directories)
    (following : Files.Following) {core : Core} (hcore : core ∈ twoCores.grid.cores) :
    u.locate [] following (Files.Path.join (Bytes.ofText besideRegion.directory)
      (Bytes.ofText core.streamName)) = .ok (.entry ⟨2, Bytes.ofText core.streamName⟩ false) := by
  obtain ⟨hdev, hshm, hfirst, hsecond⟩ := node_crowded hu
  have hway : u.descend? [] [Bytes.ofText "dev", Bytes.ofText "shm"] = some [2, 1] := by
    simp [Tree.descend?, Files.Way.target, hdev, hshm]
  have hcores : twoCores.grid.cores = [⟨0, 0⟩, ⟨0, 1⟩] := by decide +kernel
  simp only [hcores, List.mem_cons, List.not_mem_nil, or_false] at hcore
  rcases hcore with rfl | rfl
  · refine Tree.locate_of_descend (by decide +kernel) (by decide +kernel) (by decide +kernel)
      (by decide +kernel) hway (by decide +kernel) fun target hlink => ?_
    cases hfirst.symm.trans hlink
  · refine Tree.locate_of_descend (by decide +kernel) (by decide +kernel) (by decide +kernel)
      (by decide +kernel) hway (by decide +kernel) fun target hlink => ?_
    cases hsecond.symm.trans hlink

theorem makePath_crowded {u : Tree} (hu : u.directories = crowded.directories) :
    u.makePath [] (Bytes.ofText besideRegion.directory) = (.ok (), u) := by
  obtain ⟨hdev, hshm, -⟩ := node_crowded hu
  have hway : u.descend? [] [Bytes.ofText "dev"] = some [1] := by
    simp [Tree.descend?, Files.Way.target, hdev]
  have hlocate : ∀ following, u.locate [] following (Bytes.ofText besideRegion.directory) =
      .ok (.entry ⟨1, Bytes.ofText "shm"⟩ false) := fun following =>
    Tree.locate_of_descend (by decide +kernel) (by decide +kernel) (by decide +kernel)
      (by decide +kernel) hway (by decide +kernel) fun target hlink => by
        cases hshm.symm.trans hlink
  have hlength : ¬ Tree.nameLimit < (Bytes.ofText "shm").length := by decide +kernel
  refine Tree.makePath_of_isDirectory ?_
  simp [Tree.isDirectory, Tree.find, hlocate, Tree.search, hshm, hlength]

/-- The first stream is created over the region's file, and the second cannot be created. -/
theorem openAll_crowded {u : Tree} (hu : u.directories = crowded.directories) :
    (∃ e, (Streams.openAll twoCores.grid u [] (Bytes.ofText besideRegion.directory)).result =
        .error e) ∧
      .file 0 ∈ Streams.opensAll twoCores.grid u [] (Bytes.ofText besideRegion.directory) := by
  obtain ⟨-, -, hfirst, -⟩ := node_crowded hu
  obtain ⟨-, -, -, hsecond⟩ := node_crowded (u := u.write 0 .empty) hu
  have hcores : twoCores.grid.cores = [⟨0, 0⟩, ⟨0, 1⟩] := by decide +kernel
  have hname : ∀ core ∈ twoCores.grid.cores,
      ¬ Tree.nameLimit < (Bytes.ofText core.streamName).length := by decide +kernel
  have hemptied : u.create [] (Files.Path.join (Bytes.ofText besideRegion.directory)
      (Bytes.ofText (Core.streamName ⟨0, 0⟩))) = .ok (.file 0, u.write 0 .empty) := by
    have hcore : ⟨0, 0⟩ ∈ twoCores.grid.cores := by decide +kernel
    have hnode : u.node? ⟨2, Bytes.ofText (Core.streamName ⟨0, 0⟩)⟩ = some (.file 0) := hfirst
    simp [Tree.create, locate_crowded hu _ hcore, Tree.search, hname _ hcore, hnode]
  have hrefused : (u.write 0 .empty).create [] (Files.Path.join
      (Bytes.ofText besideRegion.directory) (Bytes.ofText (Core.streamName ⟨0, 1⟩))) =
        .error (.system .isDirectory) := by
    have hcore : ⟨0, 1⟩ ∈ twoCores.grid.cores := by decide +kernel
    have hnode : (u.write 0 .empty).node? ⟨2, Bytes.ofText (Core.streamName ⟨0, 1⟩)⟩ =
        some (.directory 3) := hsecond
    simp [Tree.create, locate_crowded (u := u.write 0 .empty) hu _ hcore, Tree.search,
      hname _ hcore, hnode]
  simp [Streams.openAll, Streams.opensAll, makePath_crowded hu, hcores, Streams.create,
    Streams.opens, hemptied, hrefused, Except.map]

theorem setUp_crowded :
    crowded.fileSize? twoCores.cwd twoCores.regionPath =
        some (Region.size twoCores.geometry twoCores.grid) ∧
      Region.setUp twoCores.geometry twoCores.grid crowded twoCores.cwd twoCores.regionPath =
        ⟨.ok ⟨twoCores.regionPath, 0, false⟩, crowded, [.attachingRegion twoCores.regionPath]⟩ := by
  obtain ⟨-, -, hfirst, -⟩ := node_crowded (u := crowded) rfl
  have hcore : ⟨0, 0⟩ ∈ twoCores.grid.cores := by decide +kernel
  have hlocate : ∀ following, crowded.locate twoCores.cwd following twoCores.regionPath =
      .ok (.entry ⟨2, Bytes.ofText "stream-0-0"⟩ false) := fun following =>
    locate_crowded (u := crowded) rfl following hcore
  have hlength : ¬ Tree.nameLimit < (Bytes.ofText "stream-0-0").length := by decide +kernel
  have hsize : (crowded.read 0).size = Region.size twoCores.geometry twoCores.grid := by
    decide +kernel
  have hfind : crowded.find twoCores.cwd twoCores.regionPath = .ok (.file 0) := by
    simp [Tree.find, hlocate, Tree.search, hlength, hfirst]
  refine ⟨Tree.fileSize?_eq_some_iff.mpr ⟨0, hfind, hsize⟩, ?_⟩
  simp [Region.setUp, Region.attach, Tree.createNew, Tree.openExisting, hfind, hlocate,
    Tree.search, hlength, hfirst, Tree.sizeOf, hsize]

/-- The program attaches to a region of the right size and empties its file, for the first stream
has the same path. The second cannot be created: the program fails, and leaves no byte of the
region. -/
theorem emptied_by_stream :
    crowded.IsClosed ∧ Undisturbed twoCores besideRegion crowded [] ∧
      (through twoCores besideRegion crowded []).stage = .exited 1 ∧
      crowded.fileSize? twoCores.cwd twoCores.regionPath =
        some (Region.size twoCores.geometry twoCores.grid) ∧
      (through twoCores besideRegion crowded []).tree.fileSize? twoCores.cwd
        twoCores.regionPath = some 0 := by
  have hundisturbed : Undisturbed twoCores besideRegion crowded [] := by
    intro before path u s hprefix
    simp at hprefix
  obtain ⟨hsize, hattached⟩ := setUp_crowded
  have hsetup : (Region.setUp twoCores.geometry twoCores.grid crowded twoCores.cwd
      twoCores.regionPath).result = .ok ⟨twoCores.regionPath, 0, false⟩ := by
    rw [hattached]
  obtain ⟨⟨e, herror⟩, hmem⟩ := openAll_crowded (u := Region.zero
    ⟨twoCores.regionPath, 0, false⟩ twoCores.geometry twoCores.grid crowded) rfl
  have hprepared : (prepared twoCores besideRegion crowded
      ⟨twoCores.regionPath, 0, false⟩).result = .error e := by
    rw [prepared, hattached]
    exact herror
  have hemptied : ¬ IsSpared twoCores besideRegion crowded ⟨twoCores.regionPath, 0, false⟩ := by
    rw [IsSpared, streamFiles, hattached, Decidable.not_not]
    exact hmem
  have hexited : (through twoCores besideRegion crowded []).stage = .exited 1 :=
    (start_of_unopened hsetup hprepared).2
  obtain ⟨-, -, hleaves⟩ :=
    (tornDown_of_unopened isClosed_crowded hsetup hprepared hexited).unopened _ e hsetup hprepared
  rw [if_neg hemptied] at hleaves
  exact ⟨isClosed_crowded, hundisturbed, hexited, hsize, hleaves rfl⟩

end Program.Run

end TraceRing
