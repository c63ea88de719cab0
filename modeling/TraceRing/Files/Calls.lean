import TraceRing.Files.Tree

/-!
# File system calls

What a program does to a file tree, call by call. A call that fails leaves the tree as it was.
-/

namespace TraceRing.Files

/-- What an open file stands for. -/
inductive Opened where
  | file (inode : Nat)
  | device (d : Device)
  deriving DecidableEq, Repr

namespace Tree

/-- The size of an open file; a device has none. -/
def sizeOf (t : Tree) : Opened → Nat
  | .file inode => (t.read inode).size
  | .device _ => 0

/-! ## Directories -/

/-- Makes a directory. A slash may come behind its name. -/
def makeDirectory (t : Tree) (cwd : Location) (path : Bytes) : Except IoError Tree :=
  match t.locate cwd .never path with
  | .error e => .error e
  | .ok (.directory _) => .error (.system .alreadyExists)
  | .ok (.entry place _) =>
    match t.search place with
    | .error e => .error e
    | .ok (some _) => .error (.system .alreadyExists)
    | .ok none => .ok (t.addDirectory place)

/-- Makes a directory unless it exists. -/
def ensureDirectory (t : Tree) (cwd : Location) (path : Bytes) : Except IoError Unit × Tree :=
  match t.makeDirectory cwd path with
  | .ok t => (.ok (), t)
  | .error e => if t.isDirectory cwd path then (.ok (), t) else (.error e, t)

/-- Makes a directory unless it exists, and before it those of the given ones above it, nearest
first, that are missing. -/
def makeDirectories (cwd : Location) : List Bytes → Tree → Bytes → Except IoError Unit × Tree
  | _, t, [] => (.ok (), t)
  | [], t, path => t.ensureDirectory cwd path
  | parent :: above, t, path =>
    match t.makeDirectory cwd path with
    | .error (.system .noEntry) =>
      match makeDirectories cwd above t parent with
      | (.error e, t) => (.error e, t)
      | (.ok (), t) => t.ensureDirectory cwd path
    | _ => t.ensureDirectory cwd path

/-- Makes a directory and everything above it that is missing. -/
def makePath (t : Tree) (cwd : Location) (path : Bytes) : Except IoError Unit × Tree :=
  makeDirectories cwd (Path.ancestors path) t path

/-- Makes a symbolic link. A link leads somewhere, be it to nothing. -/
def makeLink (t : Tree) (cwd : Location) (path target : Bytes) : Except IoError Tree :=
  if target = [] then .error (.system .noEntry)
  else
    match t.locate cwd .never path with
    | .error e => .error e
    | .ok (.directory _) => .error (.system .alreadyExists)
    | .ok (.entry place slash) =>
      match t.search place with
      | .error e => .error e
      | .ok (some _) => .error (.system .alreadyExists)
      | .ok none =>
        if slash then .error (.system .noEntry) else .ok (t.addEntry place (.link target))

/-! ## Files -/

/-- Creates a file that must not exist: its number, and the tree. No file is created where a slash
asks for a directory. -/
def createNew (t : Tree) (cwd : Location) (path : Bytes) : Except IoError (Nat × Tree) :=
  match t.locate cwd .never path with
  | .error e => .error e
  | .ok (.directory _) => .error (.system .alreadyExists)
  | .ok (.entry _ true) => .error (.system .isDirectory)
  | .ok (.entry place false) =>
    match t.search place with
    | .error e => .error e
    | .ok (some _) => .error (.system .alreadyExists)
    | .ok none => .ok (t.addFile place)

/-- Opens a file that exists for reading and writing. -/
def openExisting (t : Tree) (cwd : Location) (path : Bytes) : Except IoError Opened :=
  match t.find cwd path with
  | .error e => .error e
  | .ok (.directory _) => .error (.system .isDirectory)
  | .ok (.file inode) => .ok (.file inode)
  | .ok (.device d) => .ok (.device d)
  | .ok (.link _) => .error (.system .tooManyLinks)

/-- Creates a file, or empties the one that exists. -/
def create (t : Tree) (cwd : Location) (path : Bytes) : Except IoError (Opened × Tree) :=
  match t.locate cwd .unlessSlash path with
  | .error e => .error e
  | .ok (.directory _) => .error (.system .isDirectory)
  | .ok (.entry _ true) => .error (.system .isDirectory)
  | .ok (.entry place false) =>
    match t.search place with
    | .error e => .error e
    | .ok none => .ok (.file (t.addFile place).1, (t.addFile place).2)
    | .ok (some (.directory _)) => .error (.system .isDirectory)
    | .ok (some (.file inode)) => .ok (.file inode, t.write inode .empty)
    | .ok (some (.device d)) => .ok (.device d, t)
    | .ok (some (.link _)) => .error (.system .tooManyLinks)

/-- Gives a file another size; what is new in it is 0. It may grow only up to the limit. -/
def resize (t : Tree) (inode size : Nat) : Except IoError Tree :=
  if size ≤ (t.read inode).size ∨ size ≤ t.growthLimit then
    .ok (t.write inode ((t.read inode).resize size))
  else .error (.system .fileTooLarge)

/-- Creates or empties a file and writes as much of its contents as the limit allows. -/
def writeFile (t : Tree) (cwd : Location) (path : Bytes) (data : Contents) :
    Except IoError Unit × Tree :=
  match t.create cwd path with
  | .error e => (.error e, t)
  | .ok (.device _, t) => (.ok (), t)
  | .ok (.file inode, t) => t.writeWithin inode 0 data

/-- Removes a file, a link or a device. -/
def remove (t : Tree) (cwd : Location) (path : Bytes) : Except IoError Tree :=
  match t.locate cwd .never path with
  | .error e => .error e
  | .ok (.directory _) => .error (.system .isDirectory)
  | .ok (.entry place slash) =>
    match t.search place with
    | .error e => .error e
    | .ok none => .error (.system .noEntry)
    | .ok (some (.directory _)) => .error (.system .isDirectory)
    | .ok (some _) =>
      if slash then .error (.system .notDirectory) else .ok (t.dropEntry place)

end Tree

end TraceRing.Files
