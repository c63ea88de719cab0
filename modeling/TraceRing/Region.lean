import TraceRing.Consumer
import TraceRing.Files.Calls
import TraceRing.Ring.Image

/-!
# Shared regions

The rings of all cores live in a file that every party maps. Whoever finds no file at the agreed
path creates one of the right size, all zeros, and owns it; everybody else attaches to the file
that is there, if it has that size. A handle keeps the file it opened, also after its name is
gone; only the release of the owner removes the name.
-/

namespace TraceRing

/-- A mapped region. -/
structure Region where
  path : Bytes
  /-- The number of the mapped file. -/
  inode : Nat
  /-- Whether this handle created the file. -/
  owner : Bool
  deriving DecidableEq, Repr

namespace Region

open Files (Tree Location)

/-- The rings of `grid` in a region, in a geometry. -/
def size (g : Geometry) (grid : Grid) : Nat :=
  Ring.regionSize g grid.count

/-! ## Setting up -/

/-- Attaches to the file at a path. -/
def attach (g : Geometry) (grid : Grid) (t : Tree) (cwd : Location) (path : Bytes) :
    Except TransportFailure Region :=
  match t.openExisting cwd path with
  | .error e => .error (.regionNotAttached path e)
  | .ok opened =>
    if t.sizeOf opened = size g grid then
      match opened with
      | .file inode => .ok ⟨path, inode, false⟩
      | .device _ => .error (.regionMismatch path (size g grid) 0)
    else .error (.regionMismatch path (size g grid) (t.sizeOf opened))

structure Setup where
  result : Except TransportFailure Region
  tree : Tree
  notices : List Log.Notice

/-- Creates the file at a path, or attaches to the one that is there. A file that cannot be given
its size is removed again. -/
def setUp (g : Geometry) (grid : Grid) (t : Tree) (cwd : Location) (path : Bytes) :
    Setup :=
  match t.createNew cwd path with
  | .error (.system .alreadyExists) =>
    ⟨attach g grid t cwd path, t, [.attachingRegion path]⟩
  | .error e => ⟨.error (.regionNotCreated path e), t, []⟩
  | .ok (inode, created) =>
    let notice := .allocatingRegion (size g grid) path
    match created.resize inode (size g grid) with
    | .ok sized => ⟨.ok ⟨path, inode, true⟩, sized, [notice]⟩
    | .error e =>
      match created.remove cwd path with
      | .ok removed => ⟨.error (.regionNotCreated path e), removed, [notice]⟩
      | .error refusal =>
        ⟨.error (.regionNotCreated path e), created, [notice, .removalFailed path refusal]⟩

/-- Gives a region up; its owner removes the file. -/
def release (r : Region) (t : Tree) (cwd : Location) :
    Except IoError Unit × Tree × List Log.Notice :=
  if r.owner then
    match t.remove cwd r.path with
    | .ok removed => (.ok (), removed, [.releasingRegion r.path])
    | .error e => (.error e, t, [.releasingRegion r.path])
  else (.ok (), t, [])

/-! ## Access -/

/-- Resets every ring. What the file holds behind the last of them stays. -/
def zero (r : Region) (g : Geometry) (grid : Grid) (t : Tree) : Tree :=
  t.write r.inode ((t.read r.inode).overlay 0 (.replicate (size g grid) 0))

def rings (r : Region) (g : Geometry) (grid : Grid) (t : Tree) : List (Ring g) :=
  Ring.loadAll g grid.count (t.read r.inode)

def storeRings {g : Geometry} (r : Region) (t : Tree) (rings : List (Ring g)) : Tree :=
  t.write r.inode (Ring.storeAll (t.read r.inode) rings)

/-- The place of a core's ring; a core outside the region has none. -/
def place (grid : Grid) (core : Core) : Except Fault Nat :=
  match grid.index core with
  | .error fault => .error fault
  | .ok place =>
    if place < grid.count then .ok place else .error (.indexOutOfBounds grid.count place)

/-- Runs an operation on the ring of a core. -/
def runRing {g : Geometry} (r : Region) (grid : Grid) (t : Tree) (core : Core) (op : Ring.Op g) :
    Except Fault (Ring.Answer g) × Tree :=
  match place grid core with
  | .error fault => (.error fault, t)
  | .ok i =>
    let memory := t.read r.inode
    let done := (Ring.load g memory i).run op
    (.ok done.1, t.write r.inode (Ring.store memory i done.2))

/-- Sweeps the region with a new consumer until nothing is left in it. -/
def drain (g : Geometry) (r : Region) (grid : Grid) (t : Tree) :
    Consumer.Pass g (List Nat) × Tree :=
  let lanes := (r.rings g grid t).map fun ring => Lane.new ring Sink.accepting
  let p := Consumer.drain grid false lanes false
  (p, r.storeRings t (p.lanes.map Lane.ring))

end Region

end TraceRing
