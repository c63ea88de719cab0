import TraceRing.Program.Run
import TraceRing.Proofs.Consumer.Closings
import TraceRing.Proofs.Consumer.Visits
import TraceRing.Proofs.Files.Trees
import TraceRing.Proofs.Ring.Image

/-!
# The region's file during a run

A run maps the file it found or created, and sets it to zeros. From then on it holds the rings of
all cores (`Session.Sound`): creating streams and appending to them changes other files. The one
exception is a stream that stands for the region's own file; creating that stream has emptied the
file, which then holds nothing for good, and all its rings are empty.
-/

namespace TraceRing

open Files (Contents Tree Location Opened)

/-! ## Streams -/

namespace Streams

variable {t : Tree} {inode : Nat}

theorem read_create {cwd : Location} {directory : Bytes} {cores : List Core}
    {opened : List Opened} (h : (create t cwd directory cores).result = .ok opened)
    (hinode : inode < t.contents.size) :
    opened.length = cores.length ∧ inode < (create t cwd directory cores).tree.contents.size ∧
      ((.file inode ∉ opened ∧
          (create t cwd directory cores).tree.read inode = t.read inode) ∨
        (create t cwd directory cores).tree.read inode = .empty) := by
  induction cores generalizing t opened with
  | nil =>
    cases h
    exact ⟨rfl, hinode, .inl ⟨List.not_mem_nil, rfl⟩⟩
  | cons core rest ih =>
    simp only [create] at h ⊢
    split at h
    · cases h
    · next first t' hfirst =>
      obtain ⟨hlt, hkept⟩ := Tree.read_create hfirst hinode
      simp only at h ⊢
      cases hrest : (create t' cwd directory rest).result with
      | error e =>
        rw [hrest] at h
        cases h
      | ok later =>
        rw [hrest] at h
        cases h
        obtain ⟨hlength, hlt', hkept'⟩ := ih hrest hlt
        refine ⟨by simp [hlength], hlt', ?_⟩
        -- once the file is empty it stays so
        rcases hkept' with ⟨hlater, hread'⟩ | hempty
        · rcases hkept with ⟨hne, hread⟩ | hempty
          · exact .inl ⟨List.not_mem_cons_of_ne_of_not_mem hne.symm hlater, hread'.trans hread⟩
          · exact .inr (hread'.trans hempty)
        · exact .inr hempty

/-- A file that exists stays as it is while the streams are opened, or it is emptied as one of
them. -/
theorem read_openAll {grid : Grid} {cwd : Location} {directory : Bytes} {opened : List Opened}
    (h : (openAll grid t cwd directory).result = .ok opened) (hinode : inode < t.contents.size) :
    opened.length = grid.count ∧ inode < (openAll grid t cwd directory).tree.contents.size ∧
      ((.file inode ∉ opened ∧ (openAll grid t cwd directory).tree.read inode = t.read inode) ∨
        (openAll grid t cwd directory).tree.read inode = .empty) := by
  have hcontents : (t.makePath cwd directory).2.contents = t.contents :=
    Tree.contents_makeDirectories ..
  simp only [openAll] at h ⊢
  generalize t.makePath cwd directory = made at h hcontents ⊢
  obtain ⟨result, t'⟩ := made
  cases result with
  | error e => cases h
  | ok _ =>
    have hread : t'.read inode = t.read inode := by rw [Tree.read, Tree.read, hcontents]
    have hcreate := read_create h (hcontents ▸ hinode)
    rw [hread, Grid.length_cores] at hcreate
    exact hcreate

variable {g : Geometry}

/-- Streams that stand for other files leave a file alone. -/
theorem read_appendAll {writers : List Writer} (h : .file inode ∉ writers.map Writer.opened)
    (t : Tree) (lanes : List (Lane g)) :
    (appendAll t writers lanes).1.read inode = t.read inode := by
  induction writers generalizing t lanes with
  | nil => rfl
  | cons w ws ih =>
    obtain ⟨hfirst, hrest⟩ := List.ne_and_not_mem_of_not_mem_cons h
    cases lanes with
    | nil => rfl
    | cons l ls =>
      simp only [appendAll, ih hrest, Writer.append]
      split
      · rfl
      · next other hopened =>
        split
        · rfl
        · refine Tree.read_write_of_ne ?_ _
          rintro rfl
          exact hfirst hopened.symm

/-- Where no sink received anything, nothing is appended. -/
theorem appendAll_of_nothing {lanes : List (Lane g)} (h : ∀ l ∈ lanes, l.sink.received = [])
    (t : Tree) (writers : List Writer) : (appendAll t writers lanes).1 = t := by
  induction lanes generalizing t writers with
  | nil => cases writers <;> rfl
  | cons l ls ih =>
    obtain ⟨hfirst, hrest⟩ := List.forall_mem_cons.mp h
    cases writers with
    | nil => rfl
    | cons w ws =>
      have hkept : (w.append t l.sink.received).1 = t := by
        simp only [Writer.append, hfirst, if_true]
        split <;> rfl
      simp only [appendAll, hkept, ih hrest]

theorem appendAll_frame (t : Tree) (writers : List Writer) (lanes : List (Lane g)) :
    (appendAll t writers lanes).1.directories = t.directories ∧
      (appendAll t writers lanes).1.contents.size = t.contents.size ∧
      (appendAll t writers lanes).2.map Writer.opened = writers.map Writer.opened := by
  induction writers generalizing t lanes with
  | nil => exact ⟨rfl, rfl, rfl⟩
  | cons w ws ih =>
    cases lanes with
    | nil => exact ⟨rfl, rfl, rfl⟩
    | cons l ls =>
      have hfirst : (w.append t l.sink.received).1.directories = t.directories ∧
          (w.append t l.sink.received).1.contents.size = t.contents.size ∧
          (w.append t l.sink.received).2.opened = w.opened := by
        simp only [Writer.append]
        split
        · exact ⟨rfl, rfl, rfl⟩
        · split
          · exact ⟨rfl, rfl, rfl⟩
          · exact ⟨rfl, Tree.size_contents_write .., rfl⟩
      obtain ⟨hdirectories, hsize, hopened⟩ := ih (w.append t l.sink.received).1 ls
      refine ⟨hdirectories.trans hfirst.1, hsize.trans hfirst.2.1, ?_⟩
      simp only [appendAll, List.map_cons, hopened, hfirst.2.2]

theorem map_opened_new (opened : List Opened) :
    (opened.map Writer.new).map Writer.opened = opened := by
  simp [Function.comp_def, Writer.new]

end Streams

/-! ## Regions -/

namespace Region

variable {g : Geometry} {grid : Grid}

theorem size_pos (g : Geometry) (grid : Grid) : 0 < size g grid := by
  have himage : 0 < Ring.imageSize g := by
    have hbody := Ring.bodySize_le_imageSize g
    simp only [Ring.bodySize] at hbody
    omega
  exact Nat.mul_pos himage grid.count_pos

/-- A region that was set up has a file of the right size. -/
theorem size_of_setUp {t : Tree} {cwd : Location} {path : Bytes} {r : Region}
    (h : (setUp g grid t cwd path).result = .ok r) :
    ((setUp g grid t cwd path).tree.read r.inode).size = size g grid := by
  revert h
  simp only [setUp]
  split
  · -- there was a file: its size was checked
    intro h
    simp only [attach] at h
    repeat' split at h
    all_goals cases h
    next hsize => exact hsize
  · nofun
  · next inode created hnew =>
    split
    · next sized hresize =>
      rintro ⟨⟩
      simp only [Tree.resize] at hresize
      split at hresize
      · cases hresize
        rw [Tree.read_write_self (Tree.lt_of_createNew hnew), Contents.size_resize]
      · cases hresize
    · split <;> nofun

/-- Resetting a region leaves zeros, as many bytes as there were. -/
theorem read_zero {r : Region} {t : Tree} (hsize : (t.read r.inode).size = size g grid) :
    (r.zero g grid t).contents.size = t.contents.size ∧
      ((r.zero g grid t).read r.inode).size = size g grid ∧
      ((r.zero g grid t).read r.inode).IsBlank := by
  have hlt : r.inode < t.contents.size := Tree.lt_of_size_pos (hsize ▸ size_pos g grid)
  refine ⟨Tree.size_contents_write .., ?_, ?_⟩
  · rw [zero, Tree.read_write_self hlt, Contents.size_overlay, hsize]
  · rw [zero, Tree.read_write_self hlt, Contents.IsBlank, Contents.toBytes_overlay,
      Contents.toBytes_replicate, Bytes.overlay_zero (by simpa using hsize.symm)]
    exact fun b hb => List.eq_of_mem_replicate hb

/-- In memory of zeros all rings are empty. -/
theorem rings_of_blank {r : Region} {t : Tree} (h : (t.read r.inode).IsBlank) :
    r.rings g grid t = List.replicate grid.count (Ring.empty g) := by
  refine List.eq_replicate_iff.mpr ⟨by simp [rings, Ring.loadAll], fun ring hring => ?_⟩
  obtain ⟨place, -, rfl⟩ := List.mem_map.mp hring
  exact Ring.load_of_blank h place

theorem read_storeRings {r : Region} {t : Tree} (h : r.inode < t.contents.size)
    (rings : List (Ring g)) :
    (r.storeRings t rings).read r.inode = Ring.storeAll (t.read r.inode) rings :=
  Tree.read_write_self h _

/-- The rings of a region are those that were stored in it last. -/
theorem rings_storeRings {r : Region} {t : Tree} (h : (t.read r.inode).size = size g grid)
    {rings : List (Ring g)} (hlength : rings.length = grid.count) :
    r.rings g grid (r.storeRings t rings) = rings := by
  have hlt : r.inode < t.contents.size := Tree.lt_of_size_pos (h ▸ size_pos g grid)
  have hfits : Ring.regionSize g rings.length = (t.read r.inode).size := by
    rw [hlength, h, size]
  rw [Region.rings, read_storeRings hlt, ← hlength, Ring.loadAll_storeAll (Nat.le_of_eq hfits)]

/-- An operation on a ring keeps the size of the region's file. -/
theorem runRing_frame {r : Region} {t : Tree} (h : r.inode < t.contents.size) (grid : Grid)
    (core : Core) (op : Ring.Op g) :
    (r.runRing grid t core op).2.directories = t.directories ∧
      r.inode < (r.runRing grid t core op).2.contents.size ∧
      ((r.runRing grid t core op).2.read r.inode).size = (t.read r.inode).size := by
  simp only [runRing]
  split
  · exact ⟨rfl, h, rfl⟩
  · rw [Tree.size_contents_write, Tree.read_write_self h, Ring.size_store]
    exact ⟨rfl, h, rfl⟩

/-- Only a core of the grid has a place. -/
theorem lt_of_place {core : Core} {i : Nat} (h : place grid core = .ok i) : i < grid.count := by
  simp only [place] at h
  split at h
  · cases h
  · split at h
    · next hi => exact Except.ok.inj h ▸ hi
    · cases h

theorem image_le_size (g : Geometry) {i : Nat} (h : i < grid.count) :
    (i + 1) * Ring.imageSize g ≤ size g grid := by
  rw [size, Ring.regionSize, Nat.mul_comm]
  exact Nat.mul_le_mul_left _ h

/-- An operation on the ring of a core changes no other ring. -/
theorem rings_runRing {r : Region} {t : Tree} (hsize : (t.read r.inode).size = size g grid)
    {core : Core} {i : Nat} (hplace : place grid core = .ok i) (op : Ring.Op g) :
    r.rings g grid (r.runRing grid t core op).2 =
      (r.rings g grid t).modify i fun ring => (ring.run op).2 := by
  have hlt : r.inode < t.contents.size := Tree.lt_of_size_pos (hsize ▸ size_pos g grid)
  have hinside : (i + 1) * Ring.imageSize g ≤ (t.read r.inode).size :=
    hsize ▸ image_le_size g (lt_of_place hplace)
  simp only [runRing, hplace, rings, Ring.loadAll, Tree.read_write_self hlt]
  apply List.ext_getElem
  · simp
  · intro q hq hq'
    simp only [List.getElem_map, List.getElem_range, List.getElem_modify]
    split
    · next heq =>
      subst heq
      exact Ring.load_store_self _ hinside
    · next hne => exact Ring.load_store_of_ne _ hinside hne

end Region

/-! ## Work -/

namespace Program.Run

variable {h : Host} {o : Options}

/-- What a run does to its lanes when it gets to work. -/
def pass (h : Host) (o : Options) (s : Session h.geometry) (t : Tree) :
    Consumer.Pass h.geometry Consumer.Stop :=
  Consumer.sweepOn h.grid o.verbose (reload h s t) s.flag.requested

/-- The files after work, and the streams: the rings are stored, and what the sinks received is
appended. -/
def settled (h : Host) (o : Options) (s : Session h.geometry) (t : Tree) :
    Tree × List Streams.Writer :=
  Streams.appendAll (s.region.storeRings t ((pass h o s t).lanes.map Lane.ring)) s.writers
    (pass h o s t).lanes

/-- The session after work that does not end it. -/
def resumed (h : Host) (o : Options) (s : Session h.geometry) (t : Tree) : Session h.geometry :=
  { s with
    writers := (settled h o s t).2
    lanes := (pass h o s t).lanes.map Lane.emptied
    flag := { s.flag with requested := (pass h o s t).shutdown } }

/-- Only the owner of a region touches the files when it releases it, and then only a name. -/
theorem contents_release (h : Host) (r : Region) (t : Tree) :
    (release h r t).1.contents = t.contents ∧ (r.owner = false → (release h r t).1 = t) := by
  simp only [release, Region.release]
  cases r.owner with
  | false => exact ⟨rfl, fun _ => rfl⟩
  | true =>
    refine ⟨?_, nofun⟩
    simp only [if_true]
    cases hremove : t.remove h.cwd r.path with
    | ok removed => exact Tree.contents_remove hremove
    | error e => rfl

theorem isWrite_finishFrom (grid : Grid) (place : Nat) (lanes : List (Lane h.geometry)) :
    ∀ e ∈ (Consumer.finishFrom grid place lanes).2, e.isWrite = false := by
  induction lanes generalizing place with
  | nil => nofun
  | cons l rest ih =>
    have hfirst : ∀ e ∈ (l.finish (grid.coreAt place) place).2, e.isWrite = false := by
      simp only [Lane.finish]
      split <;> simp [Event.isWrite]
    simp only [Consumer.finishFrom]
    split <;> exact List.forall_mem_append.mpr ⟨hfirst, ih (place + 1)⟩

theorem isWrite_logs (notices : List Log.Notice) :
    ∀ e ∈ notices.map Event.log, e.isWrite = false :=
  List.forall_mem_map.mpr fun _ _ => rfl

section Work

variable {s : Session h.geometry} {t : Tree}

/-- A run with nothing left to move stays at work. -/
theorem work_of_idle (hpass : (pass h o s t).result = .ok .idle) :
    work h o s t =
      ⟨(settled h o s t).1, (pass h o s t).events, .working (resumed h o s t)⟩ := by
  rw [pass] at hpass
  simp only [work, hpass]
  rfl

theorem work_of_shutdown (hpass : (pass h o s t).result = .ok .shutdown) :
    work h o s t =
      let ended := conclude h o (resumed h o s t) (settled h o s t).1 (.ok ())
      { ended with
        events := (pass h o s t).events
          ++ Consumer.stopNotice (resumed h o s t).lanes :: ended.events } := by
  rw [pass] at hpass
  simp only [work, hpass]
  rfl

theorem work_of_error {e : TransportFailure} (hpass : (pass h o s t).result = .error e) :
    work h o s t =
      let ended := conclude h o (resumed h o s t) (settled h o s t).1 (.error e)
      { ended with events := (pass h o s t).events ++ ended.events } := by
  rw [pass] at hpass
  simp only [work, hpass]
  rfl

end Work

/-- Work goes on, or it ends with the release of the region. -/
theorem work_cases (h : Host) (o : Options) (s : Session h.geometry) (t : Tree) :
    work h o s t = ⟨(settled h o s t).1, (pass h o s t).events, .working (resumed h o s t)⟩ ∨
    ∃ code rest, work h o s t =
        ⟨(release h s.region (settled h o s t).1).1, (pass h o s t).events ++ rest,
          .exited code⟩ ∧
      ∀ e ∈ rest, e.isWrite = false := by
  have hend : ∀ result, ∃ code rest, conclude h o (resumed h o s t) (settled h o s t).1 result =
        ⟨(release h s.region (settled h o s t).1).1, rest, .exited code⟩ ∧
      ∀ e ∈ rest, e.isWrite = false := by
    intro result
    refine ⟨_, _, rfl, List.forall_mem_append.mpr ⟨isWrite_finishFrom _ _ _, isWrite_logs _⟩⟩
  cases hpass : (pass h o s t).result with
  | ok stop =>
    cases stop with
    | idle => exact .inl (work_of_idle hpass)
    | shutdown =>
      obtain ⟨code, rest, hended, hrest⟩ := hend (.ok ())
      rw [work_of_shutdown hpass, hended]
      exact .inr ⟨code, _, rfl, List.forall_mem_cons.mpr ⟨rfl, hrest⟩⟩
  | error e =>
    obtain ⟨code, rest, hended, hrest⟩ := hend (.error e)
    rw [work_of_error hpass, hended]
    exact .inr ⟨code, rest, rfl, hrest⟩

/-- The sinks of the lanes stay as they are while the rings are taken from memory. -/
theorem exists_of_mem_reload {s : Session h.geometry} {t : Tree} {l : Lane h.geometry}
    (hl : l ∈ reload h s t) : ∃ before ∈ s.lanes, l.sink = before.sink := by
  obtain ⟨place, hplace⟩ := List.mem_iff_getElem?.mp hl
  obtain ⟨before, ring, hbefore, -, rfl⟩ := List.getElem?_zipWith_eq_some.mp hplace
  exact ⟨before, List.mem_of_getElem? hbefore, rfl⟩

theorem pass_of_requested {s : Session h.geometry} (hs : s.flag.requested = true) (o : Options)
    (t : Tree) : pass h o s t = ⟨.ok .shutdown, reload h s t, true, []⟩ := by
  rw [pass, hs, Consumer.sweepOn_shutdown]

/-- A run that is asked to shut down ends well, if its streams can be flushed. -/
theorem stage_work_of_requested {s : Session h.geometry} (hs : s.flag.requested = true)
    (hflush : ∀ l ∈ s.lanes, l.sink.flushError = none) (o : Options) (t : Tree) :
    (work h o s t).stage = .exited 0 := by
  have hreload : ∀ l ∈ (reload h s t).map Lane.emptied, l.sink.flushError = none := by
    refine List.forall_mem_map.mpr fun l hl => ?_
    obtain ⟨before, hbefore, hsink⟩ := exists_of_mem_reload hl
    exact (congrArg Sink.flushError hsink).trans (hflush before hbefore)
  have hcounts := (Consumer.finishFrom_eq_ok_iff h.grid 0 _).mpr ⟨hreload, rfl⟩
  have hpass := pass_of_requested hs o t
  rw [pass] at hpass
  simp only [work, hpass, conclude, Consumer.finish, hcounts]

end Program.Run

/-! ## Between happenings -/

namespace Program

open Run

/-- A stream that was just opened has received nothing. -/
def Host.IsFresh (h : Host) : Prop :=
  ∀ core opened, (h.sink core opened).received = []

/-- A session whose region holds the rings of all cores, or nothing for good. -/
structure Session.Sound {h : Host} (s : Session h.geometry) (t : Tree) : Prop where
  exists_file : s.region.inode < t.contents.size
  length_lanes : s.lanes.length = h.grid.count
  received : ∀ l ∈ s.lanes, l.sink.received = []
  file : ((t.read s.region.inode).size = Region.size h.geometry h.grid ∧
      .file s.region.inode ∉ s.writers.map Streams.Writer.opened) ∨
    (t.read s.region.inode).size = 0

namespace Session.Sound

variable {h : Host} {s : Session h.geometry} {t : Tree}

theorem rings_reload (hs : s.Sound t) :
    (reload h s t).map Lane.ring = s.region.rings h.geometry h.grid t := by
  have hlength : s.lanes.length = (s.region.rings h.geometry h.grid t).length := by
    simp [hs.length_lanes, Region.rings, Ring.loadAll]
  apply List.ext_getElem
  · simp [reload, hlength]
  · intro place hplace hplace'
    simp [reload]

theorem received_reload (hs : s.Sound t) : ∀ l ∈ reload h s t, l.sink.received = [] := by
  intro l hl
  obtain ⟨before, hbefore, hsink⟩ := exists_of_mem_reload hl
  rw [hsink]
  exact hs.received before hbefore

theorem length_pass (hs : s.Sound t) (o : Options) :
    (pass h o s t).lanes.length = h.grid.count := by
  have hrings := congrArg List.length hs.rings_reload
  simp only [List.length_map, Region.rings, Ring.loadAll, List.length_range] at hrings
  exact (Consumer.length_drain ..).trans hrings

/-- Where the region holds zeros only there is nothing to move. -/
theorem pass_of_blank (hs : s.Sound t) (hblank : (t.read s.region.inode).IsBlank) (o : Options) :
    (pass h o s t).result = .ok (if s.flag.requested then .shutdown else .idle) ∧
      (pass h o s t).IsIdle (reload h s t) := by
  refine Consumer.sweepOn_of_empty h.grid o.verbose (fun l hl => ?_) s.flag.requested
  have hring : l.ring ∈ s.region.rings h.geometry h.grid t := by
    rw [← hs.rings_reload]
    exact List.mem_map_of_mem hl
  rw [Region.rings_of_blank hblank] at hring
  rw [Lane.IsEmpty, List.eq_of_mem_replicate hring]
  rfl

theorem received_of_idle (hs : s.Sound t) {o : Options}
    (hidle : (pass h o s t).IsIdle (reload h s t)) :
    ∀ l ∈ (pass h o s t).lanes, l.sink.received = [] := by
  intro l hl
  have hsink : l.sink ∈ (reload h s t).map Lane.sink := hidle.sinks ▸ List.mem_map_of_mem hl
  obtain ⟨before, hbefore, hsame⟩ := List.mem_map.mp hsink
  rw [← hsame]
  exact hs.received_reload before hbefore

/-- Work stores the rings in the region's file, and nothing else. -/
theorem read_settled (hs : s.Sound t) (o : Options) :
    (settled h o s t).1.read s.region.inode =
      Ring.storeAll (t.read s.region.inode) ((pass h o s t).lanes.map Lane.ring) := by
  rw [← Region.read_storeRings hs.exists_file, settled]
  rcases hs.file with ⟨-, hother⟩ | hempty
  · exact Streams.read_appendAll hother _ _
  · have hblank := Contents.isBlank_of_size_eq_zero hempty
    rw [Streams.appendAll_of_nothing (hs.received_of_idle (hs.pass_of_blank hblank o).2)]

/-- After work the rings of the region are those of the lanes. -/
theorem rings_settled (hs : s.Sound t) (o : Options) :
    s.region.rings h.geometry h.grid (settled h o s t).1 = (pass h o s t).lanes.map Lane.ring := by
  have hread := hs.read_settled o
  have hlength : ((pass h o s t).lanes.map Lane.ring).length = h.grid.count := by
    rw [List.length_map, hs.length_pass]
  rcases hs.file with ⟨hsize, -⟩ | hempty
  · rw [Region.rings, hread, ← Region.read_storeRings hs.exists_file]
    exact Region.rings_storeRings hsize hlength
  · have hblank := Contents.isBlank_of_size_eq_zero hempty
    have hblank' : ((settled h o s t).1.read s.region.inode).IsBlank := by
      refine Contents.isBlank_of_size_eq_zero ?_
      rw [hread, Ring.size_storeAll, hempty]
    rw [(hs.pass_of_blank hblank o).2.rings, hs.rings_reload, Region.rings_of_blank hblank,
      Region.rings_of_blank hblank']

theorem resumed (hs : s.Sound t) (o : Options) : (resumed h o s t).Sound (settled h o s t).1 := by
  have hframe := Streams.appendAll_frame
    (s.region.storeRings t ((pass h o s t).lanes.map Lane.ring)) s.writers (pass h o s t).lanes
  have hsize : ((settled h o s t).1.read s.region.inode).size = (t.read s.region.inode).size := by
    rw [hs.read_settled o, Ring.size_storeAll]
  constructor
  · exact Nat.lt_of_lt_of_eq hs.exists_file
      ((Tree.size_contents_write ..).symm.trans hframe.2.1.symm)
  · simp only [Run.resumed, List.length_map, hs.length_pass]
  · exact List.forall_mem_map.mpr fun _ _ => rfl
  · rw [Run.resumed, hsize, settled, hframe.2.2]
    exact hs.file

end Session.Sound

end Program

namespace Program.Run

variable {h : Host} {o : Options}

/-! ## The start -/

/-- A run that fails at its start writes nothing. -/
theorem isWrite_failed {g : Geometry} (tree : Tree) (notices : List Log.Notice) (report : String) :
    ∀ e ∈ (failed (g := g) tree notices report).events, e.isWrite = false :=
  isWrite_logs _

/-- The session of a run that opened its streams on some files. -/
def opening (h : Host) (region : Region) (opened : List Opened) (t : Tree) : Session h.geometry :=
  ⟨region, opened.map Streams.Writer.new,
    List.zipWith Lane.new (region.rings h.geometry h.grid t)
      (List.zipWith h.sink h.grid.cores opened), ShutdownFlag.new.install.1⟩

/-- The files when a run opens its streams: its region is set up, and set to zeros. -/
def prepared (h : Host) (o : Options) (t : Tree) (region : Region) : Streams.Setup :=
  Streams.openAll h.grid
    (region.zero h.geometry h.grid (Region.setUp h.geometry h.grid t h.cwd h.regionPath).tree)
    h.cwd (Bytes.ofText o.directory)

theorem start_of_opened {t : Tree} {region : Region} {opened : List Opened}
    (hsetup : (Region.setUp h.geometry h.grid t h.cwd h.regionPath).result = .ok region)
    (hopened : (prepared h o t region).result = .ok opened) :
    (start h o t).tree = (prepared h o t region).tree ∧
      (start h o t).stage = .working (opening h region opened (prepared h o t region).tree) ∧
      ∀ e ∈ (start h o t).events, e.isWrite = false := by
  rw [prepared] at hopened
  simp only [start, hsetup, hopened]
  exact ⟨rfl, rfl,
    List.forall_mem_append.mpr ⟨isWrite_logs _, List.forall_mem_singleton.mpr rfl⟩⟩

/-- A run fails at its start, or it gets to work. -/
theorem start_cases (h : Host) (o : Options) (t : Tree) :
    (∃ tree notices report, start h o t = failed tree notices report) ∨
    ∃ region opened,
      (Region.setUp h.geometry h.grid t h.cwd h.regionPath).result = .ok region ∧
        (prepared h o t region).result = .ok opened := by
  cases hsetup : (Region.setUp h.geometry h.grid t h.cwd h.regionPath).result with
  | error e =>
    simp only [start, hsetup]
    exact .inl ⟨_, _, _, rfl⟩
  | ok region =>
    cases hstreams : (prepared h o t region).result with
    | error e =>
      rw [prepared] at hstreams
      simp only [start, hsetup, hstreams]
      exact .inl ⟨_, _, _, rfl⟩
    | ok opened => exact .inr ⟨region, opened, rfl, hstreams⟩

/-! ## Steps -/

/-- What a happening makes of a session, its files and the events so far. -/
inductive Comes (h : Host) (o : Options) (s : Session h.geometry) (t : Tree)
    (events : List Event) : Happening h.geometry → Run h.geometry → Prop where
  | ring (core : Core) (op : Ring.Op h.geometry) :
      Comes h o s t events (.ring core op)
        ⟨(s.region.runRing h.grid t core op).2, events, .working s⟩
  | removed {path : Bytes} {t' : Tree} (hcontents : t'.contents = t.contents) :
      Comes h o s t events (.remove path) ⟨t', events, .working s⟩
  | signaled (signal : Signal) (flag : ShutdownFlag) :
      Comes h o s t events (.signal signal) ⟨t, events, .working { s with flag := flag }⟩
  | worked : Comes h o s t events .work
      ⟨(settled h o s t).1, events ++ (pass h o s t).events, .working (resumed h o s t)⟩
  | ended {code : Nat} {rest : List Event} (hrest : ∀ e ∈ rest, e.isWrite = false) :
      Comes h o s t events .work
        ⟨(release h s.region (settled h o s t).1).1, events ++ ((pass h o s t).events ++ rest),
          .exited code⟩

theorem comes_after {p : Run h.geometry} {s : Session h.geometry} (hp : p.stage = .working s)
    (o : Options) (what : Happening h.geometry) :
    Comes h o s p.tree p.events what (after h o p what) := by
  obtain ⟨t, events, stage⟩ := p
  cases hp
  cases what with
  | ring core op => exact .ring core op
  | remove path =>
    simp only [after]
    cases hremove : t.remove h.cwd path with
    | error e => exact .removed rfl
    | ok t' => exact .removed (Tree.contents_remove hremove)
  | signal signal =>
    simp only [after]
    cases hflag : s.flag.deliver signal with
    | none => exact .signaled signal s.flag
    | some flag => exact .signaled signal flag
  | work =>
    simp only [after]
    rcases work_cases h o s t with hwork | ⟨code, rest, hwork, hrest⟩
    · rw [hwork]
      exact .worked
    · rw [hwork]
      exact .ended hrest

theorem after_exited {p : Run h.geometry} {code : Nat} (hp : p.stage = .exited code)
    (o : Options) (what : Happening h.geometry) : after h o p what = p := by
  simp only [after, hp]

/-! ## Whole runs -/

/-- The session of a run at work is sound. -/
def Sound (p : Run h.geometry) : Prop :=
  ∀ s, p.stage = .working s → s.Sound (h := h) p.tree

/-- A session opens with a region of zeros. -/
theorem sound_opening (hfresh : h.IsFresh) {t : Tree} {region : Region} {opened : List Opened}
    (hsetup : (Region.setUp h.geometry h.grid t h.cwd h.regionPath).result = .ok region)
    (hopened : (prepared h o t region).result = .ok opened) :
    (opening h region opened (prepared h o t region).tree).Sound (prepared h o t region).tree ∧
      ((prepared h o t region).tree.read region.inode).IsBlank := by
  obtain ⟨-, hsize, hblank⟩ := Region.read_zero (Region.size_of_setUp hsetup)
  have hlt := Tree.lt_of_size_pos (hsize ▸ Region.size_pos h.geometry h.grid)
  obtain ⟨hlength, hlt', hkept⟩ := Streams.read_openAll hopened hlt
  refine ⟨⟨hlt', ?_, ?_, ?_⟩, ?_⟩
  · simp [opening, Region.rings, Ring.loadAll, hlength]
  · intro l hl
    obtain ⟨place, hplace⟩ := List.mem_iff_getElem?.mp hl
    obtain ⟨ring, sink, -, hsink, rfl⟩ := List.getElem?_zipWith_eq_some.mp hplace
    obtain ⟨core, file, -, -, rfl⟩ := List.getElem?_zipWith_eq_some.mp hsink
    exact hfresh core file
  · simp only [opening, Streams.map_opened_new, prepared]
    rcases hkept with ⟨hother, hread⟩ | hempty
    · exact .inl ⟨by rw [hread, hsize], hother⟩
    · exact .inr (by rw [hempty]; rfl)
  · rw [prepared]
    rcases hkept with ⟨-, hread⟩ | hempty
    · rw [hread]
      exact hblank
    · exact Contents.isBlank_of_size_eq_zero (by rw [hempty]; rfl)

theorem sound_start (hfresh : h.IsFresh) (o : Options) (t : Tree) {s : Session h.geometry}
    (hs : (start h o t).stage = .working s) :
    s.Sound (h := h) (start h o t).tree ∧ ((start h o t).tree.read s.region.inode).IsBlank := by
  rcases start_cases h o t with ⟨tree, notices, report, hfailed⟩ |
    ⟨region, opened, hsetup, hopened⟩
  · rw [hfailed] at hs
    cases hs
  · obtain ⟨htree, hstage, -⟩ := start_of_opened hsetup hopened
    rw [hstage] at hs
    cases hs
    rw [htree]
    exact sound_opening hfresh hsetup hopened

theorem Sound.after {p : Run h.geometry} (hp : p.Sound) (o : Options)
    (what : Happening h.geometry) : (after h o p what).Sound := by
  cases hstage : p.stage with
  | exited code =>
    rw [after_exited hstage]
    exact hp
  | working before =>
    have hbefore := hp before hstage
    have hcomes := comes_after hstage o what
    generalize Run.after h o p what = next at hcomes ⊢
    intro s hs
    cases hcomes with
    | ring core op =>
      cases hs
      obtain ⟨-, hlt, hsize⟩ := Region.runRing_frame hbefore.exists_file h.grid core op
      refine ⟨hlt, hbefore.length_lanes, hbefore.received, ?_⟩
      rw [hsize]
      exact hbefore.file
    | removed hcontents =>
      cases hs
      refine ⟨hcontents ▸ hbefore.exists_file, hbefore.length_lanes, hbefore.received, ?_⟩
      simpa only [Tree.read, hcontents] using hbefore.file
    | signaled signal flag =>
      cases hs
      exact ⟨hbefore.exists_file, hbefore.length_lanes, hbefore.received, hbefore.file⟩
    | worked =>
      cases hs
      exact hbefore.resumed o
    | ended hrest => cases hs

theorem sound_through (hfresh : h.IsFresh) (o : Options) (t : Tree)
    (happenings : List (Happening h.geometry)) : (through h o t happenings).Sound :=
  List.foldlRecOn happenings (Run.after h o) (fun _ hs => (sound_start hfresh o t hs).1)
    fun _ hp what _ => hp.after o what

end Program.Run

end TraceRing
