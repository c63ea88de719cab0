import TraceRing.Files.Tree

/-!
# Changes

What has to be done to one file tree to make it another: the nodes to remove and to add, and the
parts of files to write. A file that only grew is appended to, and a file that kept its size is
written word by word where it differs, so that whoever maps it sees nothing else move.
-/

namespace TraceRing.Files

inductive Change where
  | remove (location : Location)
  | makeDirectory (location : Location)
  | makeFile (location : Location) (contents : Bytes)
  | append (location : Location) (bytes : Bytes)
  | store (location : Location) (offset : Nat) (bytes : Bytes)
  | replace (location : Location) (contents : Bytes)
  deriving DecidableEq

namespace Change

/-- The words in which two byte strings differ, the first of them at `offset`. -/
def words (offset : Nat) : Bytes → Bytes → List (Nat × Bytes)
  | a :: b :: c :: d :: old, w :: x :: y :: z :: new =>
    let later := words (offset + 4) old new
    if [a, b, c, d] = [w, x, y, z] then later else (offset, [w, x, y, z]) :: later
  | old, new => if old = new then [] else [(offset, new)]

/-- What makes the contents of a file another. -/
def ofContents (location : Location) (old new : Bytes) : List Change :=
  if old = new then []
  else if old.length = new.length then (words 0 old new).map fun w => .store location w.1 w.2
  else if old.isPrefixOf new then [.append location (new.drop old.length)]
  else [.replace location new]

/-- What brings about a node where there was another one, or none. -/
def ofNode (old new : Tree) (location : Location) (n : Node) : List Change :=
  match n, old.at? location with
  | .file inode, some (.file before) =>
    if inode = before then ofContents location (old.read before).toBytes (new.read inode).toBytes
    else [.replace location (new.read inode).toBytes]
  | .file inode, _ => [.makeFile location (new.read inode).toBytes]
  | .directory _, none => [.makeDirectory location]
  | _, _ => []

end Change

/-- What makes a tree another. -/
def Tree.changes (old new : Tree) : List Change :=
  let gone := (old.allBelow 0).filter fun e => (new.at? e.1).isNone
  gone.map (fun e => .remove e.1)
    ++ (new.allBelow 0).flatMap fun e => Change.ofNode old new e.1 e.2

end TraceRing.Files
