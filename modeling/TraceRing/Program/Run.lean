import TraceRing.Config
import TraceRing.Log.Logger
import TraceRing.Program.Arguments
import TraceRing.Region
import TraceRing.Shutdown
import TraceRing.Streams

/-!
# A run of the program

The program sets up the region and empties its rings, creates the streams, and moves packets until
it is asked to shut down or a write fails. However it ends, it flushes its streams and releases
the region; a region it created is removed then.

What happens around the program is a list of happenings: a producer does something to its ring, a
signal arrives, somebody removes a file, and the program gets to work.
-/

namespace TraceRing.Program

open Files (Tree Location Opened)

/-- The place of a program in the world. -/
structure Host where
  config : Config
  cwd : Location
  /-- How the open stream of a core behaves as a sink. -/
  sink : Core → Opened → Sink

namespace Host

abbrev geometry (h : Host) : Geometry :=
  h.config.geometry

abbrev grid (h : Host) : Grid :=
  h.config.grid

def regionPath (h : Host) : Bytes :=
  Bytes.ofText h.config.regionPath

end Host

/-- A consumer at work. -/
structure Session (g : Geometry) where
  region : Region
  writers : List Streams.Writer
  lanes : List (Lane g)
  flag : ShutdownFlag

inductive Stage (g : Geometry) where
  | working (s : Session g)
  | exited (code : Nat)

/-- A run of the program: the files, everything it did so far, and what it is doing. -/
structure Run (g : Geometry) where
  tree : Tree
  events : List Event
  stage : Stage g

namespace Run

variable {g : Geometry}

def failed (tree : Tree) (notices : List Log.Notice) (report : String) : Run g :=
  ⟨tree, (notices ++ [Log.Notice.failed report]).map .log, .exited 1⟩

/-! ## The start -/

def regionReport (path : Bytes) (e : TransportFailure) : String :=
  "cannot set up shared memory region " ++ TransportFailure.showPath path ++ ": " ++ e.chain

def streamsReport (directory : Bytes) (e : TransportFailure) : String :=
  "cannot create streams in " ++ TransportFailure.showPath directory ++ ": " ++ e.chain

/-- Releases the region, and tells what could not be done. -/
def release (h : Host) (r : Region) (t : Tree) : Tree × List Log.Notice :=
  match r.release t h.cwd with
  | (.ok (), t, notices) => (t, notices)
  | (.error e, t, notices) => (t, notices ++ [.releaseFailed r.path e])

def start (h : Host) (o : Options) (t : Tree) : Run h.geometry :=
  let directory := Bytes.ofText o.directory
  let installed := ShutdownFlag.new.install
  let setup := Region.setUp h.geometry h.grid t h.cwd h.regionPath
  let opening := [Log.Notice.version Settings.version, installed.2] ++ setup.notices
  match setup.result with
  | .error e => failed setup.tree opening (regionReport h.regionPath e)
  | .ok region =>
    let zeroed := region.zero h.geometry h.grid setup.tree
    let streams := Streams.openAll h.grid zeroed h.cwd directory
    match streams.result with
    | .error e =>
      let released := release h region streams.tree
      failed released.1 (opening ++ streams.notices ++ released.2) (streamsReport directory e)
    | .ok opened =>
      let sinks := List.zipWith h.sink h.grid.cores opened
      let rings := region.rings h.geometry h.grid streams.tree
      ⟨streams.tree,
        (opening ++ streams.notices).map .log
          ++ [Consumer.startNotice h.grid (1000 * h.config.pollMicros)],
        .working
          ⟨region, opened.map Streams.Writer.new, List.zipWith Lane.new rings sinks, installed.1⟩⟩

/-! ## The end -/

/-- Flushes the streams, releases the region and reports how the work ended. -/
def conclude (h : Host) (o : Options) (s : Session h.geometry) (t : Tree)
    (result : Except TransportFailure Unit) : Run h.geometry :=
  let directory := Bytes.ofText o.directory
  let ended := Consumer.finish h.grid s.lanes
  let released := release h s.region t
  let outcome : Log.Notice × Nat := match result, ended.1 with
    | .error e, _ => (.failed ("consumer stopped: " ++ e.chain), 1)
    | .ok (), .error e => (.failed ("cannot flush streams: " ++ e.chain), 1)
    | .ok (), .ok counts => (.streamsWritten counts.sum directory, 0)
  ⟨released.1, ended.2 ++ (released.2 ++ [outcome.1]).map .log, .exited outcome.2⟩

/-! ## Work -/

/-- Takes the rings as they are in memory now. -/
def reload (h : Host) (s : Session h.geometry) (t : Tree) : List (Lane h.geometry) :=
  List.zipWith (fun l r => { l with ring := r }) s.lanes (s.region.rings h.geometry h.grid t)

/-- Moves packets until nothing is left to move or the work is over. -/
def work (h : Host) (o : Options) (s : Session h.geometry) (t : Tree) : Run h.geometry :=
  let pass := Consumer.sweepOn h.grid o.verbose (reload h s t) s.flag.requested
  let stored := s.region.storeRings t (pass.lanes.map Lane.ring)
  let appended := Streams.appendAll stored s.writers pass.lanes
  let s : Session h.geometry :=
    { s with
      writers := appended.2
      lanes := pass.lanes.map Lane.emptied
      flag := { s.flag with requested := pass.shutdown } }
  match pass.result with
  | .ok .idle => ⟨appended.1, pass.events, .working s⟩
  | .ok .shutdown =>
    let ended := conclude h o s appended.1 (.ok ())
    { ended with events := pass.events ++ Consumer.stopNotice s.lanes :: ended.events }
  | .error e =>
    let ended := conclude h o s appended.1 (.error e)
    { ended with events := pass.events ++ ended.events }

/-! ## Happenings -/

/-- Something that happens while the program runs. -/
inductive Happening (g : Geometry) where
  /-- A producer does something to the ring of its core. -/
  | ring (core : Core) (op : Ring.Op g)
  | remove (path : Bytes)
  | signal (s : Signal)
  | work

/-- The program after a happening. A program that has exited takes part in nothing. -/
def after (h : Host) (o : Options) (p : Run h.geometry) (what : Happening h.geometry) :
    Run h.geometry :=
  match p.stage with
  | .exited _ => p
  | .working s =>
    match what with
    | .ring core op => { p with tree := (s.region.runRing h.grid p.tree core op).2 }
    | .remove path =>
      match p.tree.remove h.cwd path with
      | .ok t => { p with tree := t }
      | .error _ => p
    | .signal signal =>
      match s.flag.deliver signal with
      | some flag => { p with stage := .working { s with flag := flag } }
      | none => p
    | .work =>
      let next := work h o s p.tree
      { next with events := p.events ++ next.events }

/-- A run with everything that happens during it. -/
def through (h : Host) (o : Options) (t : Tree) (happenings : List (Happening h.geometry)) :
    Run h.geometry :=
  happenings.foldl (after h o) (start h o t)

/-! ## What an operator sees -/

def notices (p : Run g) : List Log.Notice :=
  p.events.filterMap fun
    | .log notice => some notice
    | _ => none

/-- The exit code, once the program has exited. -/
def exitCode? (p : Run g) : Option Nat :=
  match p.stage with
  | .working _ => none
  | .exited code => some code

/-- The logger of a run: a verbose one keeps the details. -/
def logger (o : Options) : Log.Logger :=
  ⟨.upTo (if o.verbose then .debug else .info)⟩

/-- What is written for a notice at some time. -/
def logged (o : Options) (timestamp : Nat) (n : Log.Notice) : String :=
  (logger o).write ⟨timestamp, n.level, n.message⟩

end Run

end TraceRing.Program
