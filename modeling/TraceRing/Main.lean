import Std.Async.Signal
import TraceRing.Files.Changes
import TraceRing.Program.Run

/-!
# The program

The command line. Everything the program decides is decided by `Program.Run` on a file tree; here
the tree is taken from the disk before each step, and what the step changed is put back.
-/

namespace TraceRing.Disk

open Files (Tree Location Change)

/-! ## Looking -/

def pathOf (location : Location) : String :=
  "/" ++ Text.lossy (Files.joinNames location)

def contents (location : Location) : IO Bytes := do
  return (← IO.FS.readBinFile (pathOf location)).data.toList

/-- The first byte of the file at a location, enough to see whether it is empty. -/
def glance (location : Location) : IO Bytes := do
  let handle ← IO.FS.Handle.mk (pathOf location) .read
  return (← handle.read 1).data.toList

/-- Adds what stands at a location to a tree; of a file it takes what `read` reads. -/
def loadNode (read : Location → IO Bytes) (t : Tree) (location : Location) : IO Tree := do
  if (t.at? location).isSome then return t
  let some place := t.place? location | return t
  try
    let bytes ← read location
    let made := t.addFile place
    return made.2.write made.1 (.ofBytes bytes)
  catch e =>
    match e with
    | .noFileOrDirectory .. => return t
    | .inappropriateType .. => return t.addDirectory place
    | _ => throw e

/-- Adds what stands at a location and above it to a tree. -/
def load (read : Location → IO Bytes) (t : Tree) (location : Location) : IO Tree :=
  (List.range location.length).foldlM (fun t n => loadNode read t (location.take (n + 1))) t

/-- The tree as far as a run of the program looks at it. -/
def survey (h : Program.Host) (o : Program.Options) : IO Tree := do
  let given := Bytes.ofText o.directory
  let directory := (if Files.Path.isAbsolute given then [] else h.cwd) ++ Files.Path.names given
  let streams := h.grid.cores.map fun core => directory ++ [Bytes.ofText core.streamName]
  let t ← load contents Tree.empty (Files.Path.names h.regionPath)
  (h.cwd :: directory :: streams).foldlM (load glance) t

/-! ## Changing -/

/-- Puts a change on the disk. -/
def apply : Change → IO Unit
  | .remove location => IO.FS.removeFile (pathOf location)
  | .makeDirectory location => IO.FS.createDir (pathOf location)
  | .makeFile location bytes => do
    let handle ← IO.FS.Handle.mk (pathOf location) .writeNew
    handle.write ⟨bytes.toArray⟩
  | .append location bytes => do
    let handle ← IO.FS.Handle.mk (pathOf location) .append
    handle.write ⟨bytes.toArray⟩
  | .store location offset bytes => do
    let handle ← IO.FS.Handle.mk (pathOf location) .readWrite
    let _ ← handle.read offset.toUSize
    handle.write ⟨bytes.toArray⟩
  | .replace location bytes => IO.FS.writeBinFile (pathOf location) ⟨bytes.toArray⟩

/-! ## Running -/

/-- The signals that arrived. -/
def heard (waiters : List (Signal × Task (Except IO.Error Int))) : IO (List Signal) := do
  return (← waiters.filterM fun w => IO.hasFinished w.2).map Prod.fst

/-- Puts what a step did on the disk and on standard error; the program began at some time. -/
def settle {g : Geometry} (o : Program.Options) (began : Nat) (before : Tree)
    (p : Program.Run g) : IO Unit := do
  (before.changes p.tree).forM apply
  p.notices.forM fun notice => do
    let now ← IO.monoNanosNow
    IO.eprint (Program.Run.logged o ((now - began) / 1000) notice)

/-- Steps until the program exits. -/
partial def serve (h : Program.Host) (o : Program.Options) (began : Nat)
    (waiters : List (Signal × Task (Except IO.Error Int))) (p : Program.Run h.geometry) :
    IO UInt32 := do
  match p.stage with
  | .exited code => return UInt32.ofNat code
  | .working s =>
    let memory ←
      try pure (Files.Contents.ofBytes (← contents (Files.Path.names s.region.path)))
      catch _ => pure (p.tree.read s.region.inode)
    let seen := { p with tree := p.tree.write s.region.inode memory, events := [] }
    let happened := (← heard waiters).map Program.Run.Happening.signal ++ [.work]
    let next := happened.foldl (Program.Run.after h o) seen
    settle o began seen.tree next
    if next.notices.isEmpty then IO.sleep (UInt32.ofNat (h.config.pollMicros / 1000))
    serve h o began waiters next

/-- Runs the program with some options. -/
def run (o : Program.Options) : IO UInt32 := do
  let some config := Config.ofEnvironment? [] | return 1
  let began ← IO.monoNanosNow
  let cwd := Files.Path.names (Bytes.ofText (toString (← IO.currentDir)))
  let h : Program.Host := ⟨config, cwd, fun _ opened => Streams.sinkOf opened⟩
  let interrupt ← Std.Async.Signal.Waiter.mk .sigint false
  let terminate ← Std.Async.Signal.Waiter.mk .sigterm false
  let waiters := [(Signal.interrupt, ← interrupt.wait), (Signal.terminate, ← terminate.wait)]
  let tree ← survey h o
  let p := Program.Run.start h o tree
  settle o began tree p
  serve h o began waiters p

end TraceRing.Disk

open TraceRing in
def main (arguments : List String) : IO UInt32 :=
  match Program.request arguments with
  | .help => do IO.print Program.helpText; return 0
  | .version => do IO.print Program.versionText; return 0
  | .refused e => do IO.eprint e.message; return 2
  | .run o => Disk.run o
