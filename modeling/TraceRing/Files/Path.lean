import TraceRing.Bytes

/-!
# Paths

A path is a byte string; slashes separate the names in it. Empty names and the name `.` stay
where they are, the name `..` goes back.
-/

namespace TraceRing.Files

/-- The name of a directory entry. -/
abbrev Name := Bytes

/-- Where an entry is found: the names from the root to it. -/
abbrev Location := List Name

def slash : UInt8 := 47

/-- The name of the directory itself. -/
def dot : Name := [46]

/-- The name of the directory above. -/
def dotDot : Name := [46, 46]

/-- Splits a byte string at the slashes. -/
def splitNames : Bytes → List Name
  | [] => [[]]
  | b :: bs =>
    if b = slash then [] :: splitNames bs
    else
      match splitNames bs with
      | [] => [[b]]
      | name :: names => (b :: name) :: names

/-- Joins names by slashes. -/
def joinNames : List Name → Bytes
  | [] => []
  | [name] => name
  | name :: names => name ++ slash :: joinNames names

namespace Path

def isAbsolute (path : Bytes) : Bool :=
  path.head? == some slash

def endsWithSlash (path : Bytes) : Bool :=
  path.getLast? == some slash

def names (path : Bytes) : List Name :=
  (splitNames path).filter fun name => name ≠ []

def join (directory entry : Bytes) : Bytes :=
  if isAbsolute entry then entry
  else if directory = [] || endsWithSlash directory then directory ++ entry
  else directory ++ slash :: entry

/-- The names that count when a path is shortened: `.` counts only at the start of a relative
path. -/
def significant (path : Bytes) : List Name :=
  match names path with
  | [] => []
  | first :: rest =>
    if isAbsolute path then (first :: rest).filter fun name => name ≠ dot
    else first :: rest.filter fun name => name ≠ dot

/-- The directories above a path, nearest first. The last of them is the root or the empty
path. -/
def ancestors (path : Bytes) : List Bytes :=
  let root := if isAbsolute path then [slash] else []
  let parts := significant path
  (List.range parts.length).reverse.map fun n => root ++ joinNames (parts.take n)

end Path

end TraceRing.Files
