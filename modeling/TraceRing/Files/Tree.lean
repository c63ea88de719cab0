import TraceRing.Failure
import TraceRing.Files.Contents
import TraceRing.Files.Path

/-!
# File trees

A tree of directories, files, symbolic links and devices. Directories and the contents of files
have numbers. A file keeps its contents when its name is removed: whoever opened it before still
sees them. An entry is known by its `Place`, a directory and a name in it.

`Tree.walk` follows a path the way a system call does: everything before the last name has to be a
directory, links on the way are followed, and where the last name stands nothing needs to exist. A
slash behind the last name is kept, for what it means depends on the call.
-/

namespace TraceRing.Files

/-- The devices that are told apart. -/
inductive Device where
  /-- Takes everything and keeps nothing. -/
  | null
  /-- Takes nothing for lack of space. -/
  | full
  deriving DecidableEq, Repr

/-- What an entry of a directory stands for. -/
inductive Node where
  | directory (number : Nat)
  | file (inode : Nat)
  | link (target : Bytes)
  | device (d : Device)
  deriving DecidableEq, Repr

/-- The place of an entry: the number of a directory, and a name in it. -/
structure Place where
  directory : Nat
  name : Name
  deriving DecidableEq, Repr

/-- A way from the root to a directory: the numbers of the directories on it, innermost first. The
root itself, which is directory 0, is left out. -/
abbrev Way := List Nat

def Way.target (way : Way) : Nat :=
  way.headD 0

structure Tree where
  /-- The entries of each directory, by its number. -/
  directories : Array (List (Name × Node))
  /-- The contents of each file, by its number. -/
  contents : Array Contents
  /-- The largest size a file may grow to, if there is a limit. -/
  sizeLimit : Option Nat

/-- What happens to a link that a path ends at. -/
inductive Following where
  /-- It is taken itself. -/
  | never
  /-- It is followed unless a slash comes behind it. -/
  | unlessSlash
  | always
  deriving DecidableEq, Repr

def Following.follows : Following → (slash : Bool) → Bool
  | never, _ => false
  | unlessSlash, slash => !slash
  | always, _ => true

inductive Ending where
  /-- At the root, or at another directory that `.` or `..` stands for. -/
  | directory (number : Nat)
  /-- At a place in a directory, where nothing needs to be; a slash may come behind the name. -/
  | entry (place : Place) (slash : Bool)
  deriving DecidableEq, Repr

namespace Tree

def empty : Tree :=
  ⟨#[[]], #[], none⟩

def entries (t : Tree) (directory : Nat) : List (Name × Node) :=
  t.directories.getD directory []

def node? (t : Tree) (place : Place) : Option Node :=
  (t.entries place.directory).lookup place.name

def read (t : Tree) (inode : Nat) : Contents :=
  t.contents.getD inode .empty

/-! ## Following names -/

/-- The way on through directories of some names, if they are there. -/
def descend? (t : Tree) (way : Way) : Location → Option Way
  | [] => some way
  | name :: rest =>
    match t.node? ⟨way.target, name⟩ with
    | some (.directory number) => descend? t (number :: way) rest
    | _ => none

/-- The place at a location, if the directory above it is there. The root has no place. -/
def place? (t : Tree) (location : Location) : Option Place :=
  match location.getLast? with
  | none => none
  | some name => (t.descend? [] location.dropLast).map fun way => ⟨way.target, name⟩

/-- The node at a location. -/
def at? (t : Tree) (location : Location) : Option Node :=
  if location = [] then some (.directory 0) else (t.place? location).bind t.node?

/-! ## Following paths -/

def nameLimit : Nat := 255

/-- The longest path, with the byte that ends it. -/
def pathLimit : Nat := 4096

def linkLimit : Nat := 40

/-- Follows names from a directory. Following a link starts over with the names in it, and a slash
that ends the last link counts as one that ends the path. -/
def walk (t : Tree) (following : Following) (links : Nat) (here : Way) (slash : Bool)
    (names : List Name) : Except SystemError Ending :=
  match names with
  | [] => .ok (.directory here.target)
  | name :: rest =>
    let place := ⟨here.target, name⟩
    if name = dot then walk t following links here slash rest
    else if name = dotDot then walk t following links here.tail slash rest
    else if rest = [] ∧ following.follows slash = false then .ok (.entry place slash)
    else if nameLimit < name.length then .error .nameTooLong
    else
      match t.node? place with
      | some (.link target) =>
        match links with
        | 0 => .error .tooManyLinks
        | links + 1 =>
          let slash := slash || decide (rest = []) && Path.endsWithSlash target
          walk t following links (if Path.isAbsolute target then [] else here) slash
            (Path.names target ++ rest)
      | found =>
        if rest = [] then .ok (.entry place slash)
        else
          match found with
          | some (.directory number) => walk t following links (number :: here) slash rest
          | some _ => .error .notDirectory
          | none => .error .noEntry
termination_by (links, names.length)

/-- Where a path ends that starts at the root or in the working directory. -/
def locate (t : Tree) (cwd : Location) (following : Following) (path : Bytes) :
    Except IoError Ending :=
  if path.contains 0 then .error .nulInPath
  else if path = [] then .error (.system .noEntry)
  else if pathLimit ≤ path.length then .error (.system .nameTooLong)
  else
    match if Path.isAbsolute path then some [] else t.descend? [] cwd with
    | none => .error (.system .noEntry)
    | some start =>
      match t.walk following linkLimit start (Path.endsWithSlash path) (Path.names path) with
      | .error e => .error (.system e)
      | .ok ending => .ok ending

/-- What there is at a place, if anything; a directory is not searched for a name that is too
long. -/
def search (t : Tree) (place : Place) : Except IoError (Option Node) :=
  if nameLimit < place.name.length then .error (.system .nameTooLong)
  else .ok (t.node? place)

/-- The node a path leads to. A slash at its end asks for a directory. -/
def find (t : Tree) (cwd : Location) (path : Bytes) : Except IoError Node :=
  match t.locate cwd .always path with
  | .error e => .error e
  | .ok (.directory number) => .ok (.directory number)
  | .ok (.entry place slash) =>
    match t.search place, slash with
    | .error e, _ => .error e
    | .ok none, _ => .error (.system .noEntry)
    | .ok (some (.directory number)), _ => .ok (.directory number)
    | .ok (some _), true => .error (.system .notDirectory)
    | .ok (some n), false => .ok n

def pathExists (t : Tree) (cwd : Location) (path : Bytes) : Bool :=
  (t.find cwd path).isOk

def isDirectory (t : Tree) (cwd : Location) (path : Bytes) : Bool :=
  match t.find cwd path with
  | .ok (.directory _) => true
  | _ => false

def fileSize? (t : Tree) (cwd : Location) (path : Bytes) : Option Nat :=
  match t.find cwd path with
  | .ok (.file inode) => some (t.read inode).size
  | _ => none

/-! ## Changing the tree -/

/-- Adds a node at a place where nothing is. -/
def addEntry (t : Tree) (place : Place) (n : Node) : Tree :=
  { t with
    directories := t.directories.modify place.directory fun entries =>
      entries ++ [(place.name, n)] }

def addDirectory (t : Tree) (place : Place) : Tree :=
  { t with directories := t.directories.push [] }.addEntry place (.directory t.directories.size)

/-- Adds an empty file at a place where nothing is: its number, and the tree. -/
def addFile (t : Tree) (place : Place) : Nat × Tree :=
  (t.contents.size,
    { t with contents := t.contents.push .empty }.addEntry place (.file t.contents.size))

def dropEntry (t : Tree) (place : Place) : Tree :=
  { t with
    directories := t.directories.modify place.directory fun entries =>
      entries.filter fun e => e.1 ≠ place.name }

def write (t : Tree) (inode : Nat) (contents : Contents) : Tree :=
  { t with contents := t.contents.setIfInBounds inode contents }

/-- Stores data in a file from `offset` on; the file grows if they lie beyond its end. -/
def writeAt (t : Tree) (inode offset : Nat) (data : Contents) : Tree :=
  t.write inode ((t.read inode).store offset data)

/-- The largest size of any file: its blocks of 4096 bytes are numbered by 32 bits, and the last
number stands for none. -/
def largestSize : Nat := (2 ^ 32 - 1) * 4096

def growthLimit (t : Tree) : Nat :=
  match t.sizeLimit with
  | none => largestSize
  | some limit => min limit largestSize

/-- Stores data in a file from `offset` on, as far as the limits allow. Storing nothing succeeds
at any offset. -/
def writeWithin (t : Tree) (inode offset : Nat) (data : Contents) : Except IoError Unit × Tree :=
  let kept := data.take (t.growthLimit - offset)
  let written := if kept.size = 0 then t else t.writeAt inode offset kept
  if kept.size = data.size then (.ok (), written)
  else (.error (.system .fileTooLarge), written)

/-! ## Listing -/

/-- The entries below a directory, by their locations from it, each directory before what is in
it; down to some depth. -/
def entriesBelow (t : Tree) : (depth : Nat) → Nat → List (Location × Node)
  | 0, _ => []
  | depth + 1, directory =>
    (t.entries directory).flatMap fun e =>
      let within := match e.2 with
        | .directory number => entriesBelow t depth number
        | _ => []
      ([e.1], e.2) :: within.map fun below => (e.1 :: below.1, below.2)

/-- The entries below a directory, by their locations from it. There is no way longer than the
number of directories. -/
def allBelow (t : Tree) (directory : Nat) : List (Location × Node) :=
  t.entriesBelow t.directories.size directory

/-- The entries below a directory, by their paths from it, in the order of the paths' bytes. -/
def listing (t : Tree) (directory : Location) : List (Bytes × Node) :=
  let below := match t.at? directory with
    | some (.directory number) => t.allBelow number
    | _ => []
  (below.map fun e => (joinNames e.1, e.2)).mergeSort fun a b => decide (¬ b.1 < a.1)

end Tree

end TraceRing.Files
