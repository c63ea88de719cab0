import TraceRing.Consumer
import TraceRing.Files.Calls

/-!
# Streams

The stream of a core is a file in the trace directory. Opening the streams makes the directory
with everything above it, and creates or empties one file per core, in the order of the places;
the first that cannot be created ends it.
-/

namespace TraceRing.Streams

open Files (Tree Location Opened Path.join)

structure Setup where
  result : Except TransportFailure (List Opened)
  tree : Tree
  notices : List Log.Notice

def create (t : Tree) (cwd : Location) (directory : Bytes) : List Core → Setup
  | [] => ⟨.ok [], t, []⟩
  | core :: rest =>
    let path := Path.join directory (Bytes.ofText core.streamName)
    match t.create cwd path with
    | .error e => ⟨.error (.streamNotCreated path e), t, [.creatingStream path]⟩
    | .ok (opened, t) =>
      let later := create t cwd directory rest
      ⟨later.result.map (opened :: ·), later.tree, .creatingStream path :: later.notices⟩

/-- Makes the trace directory and creates the streams of all cores in it. -/
def openAll (grid : Grid) (t : Tree) (cwd : Location) (directory : Bytes) : Setup :=
  match t.makePath cwd directory with
  | (.error e, t) => ⟨.error (.streamNotCreated directory e), t, []⟩
  | (.ok (), t) => create t cwd directory grid.cores

/-! ## Streams as sinks -/

/-- The sink of an open file. A file and the null device take everything; the full device refuses
the first write, after which its consumer is at its end. -/
def sinkOf : Opened → Sink
  | .file _ => Sink.accepting
  | .device .null => Sink.accepting
  | .device .full => ⟨[⟨.fail (.system .noSpace), false⟩], none, []⟩

/-- An open stream and the number of bytes written to it. -/
structure Writer where
  opened : Opened
  written : Nat

def Writer.new (opened : Opened) : Writer :=
  ⟨opened, 0⟩

/-- Appends some bytes to the file of a stream. -/
def Writer.append (t : Tree) (w : Writer) (bytes : Bytes) : Tree × Writer :=
  let w' := { w with written := w.written + bytes.length }
  match w.opened with
  | .device _ => (t, w')
  | .file inode =>
    (if bytes = [] then t else t.writeAt inode w.written (.ofBytes bytes), w')

/-- Appends to all streams what their sinks hold. -/
def appendAll {g : Geometry} (t : Tree) : List Writer → List (Lane g) → Tree × List Writer
  | w :: ws, l :: ls =>
    let first := w.append t l.sink.received
    let later := appendAll first.1 ws ls
    (later.1, first.2 :: later.2)
  | ws, _ => (t, ws)

end TraceRing.Streams
