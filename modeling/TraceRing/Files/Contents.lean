import TraceRing.Bytes

/-!
# Contents of files

The contents of a file are kept in stretches, so that a long run of one byte takes no room: a file
may be much larger than what was ever written to it. `Contents.toBytes` is the byte string they
stand for, and every operation is the one of that name on byte strings (`toBytes_take`,
`toBytes_drop`, `toBytes_overwrite`, `toBytes_overlay`).
-/

namespace TraceRing.Files

/-- A stretch of a file. -/
inductive Stretch where
  | bytes (bs : Array UInt8)
  /-- One byte over and over. -/
  | run (length : Nat) (b : UInt8)
  deriving DecidableEq, Repr

namespace Stretch

/-- The byte string a stretch stands for. -/
def toBytes : Stretch → Bytes
  | bytes bs => bs.toList
  | run length b => List.replicate length b

def size : Stretch → Nat
  | bytes bs => bs.size
  | run length _ => length

def take (n : Nat) : Stretch → Stretch
  | bytes bs => bytes (bs.take n)
  | run length b => run (min n length) b

def drop (n : Nat) : Stretch → Stretch
  | bytes bs => bytes (bs.drop n)
  | run length b => run (length - n) b

@[simp] theorem length_toBytes (s : Stretch) : s.toBytes.length = s.size := by
  cases s <;> simp [toBytes, size]

@[simp] theorem toBytes_take (n : Nat) (s : Stretch) : (s.take n).toBytes = s.toBytes.take n := by
  cases s <;> simp [take, toBytes, List.take_replicate]

@[simp] theorem toBytes_drop (n : Nat) (s : Stretch) : (s.drop n).toBytes = s.toBytes.drop n := by
  cases s with
  | bytes bs => simp [drop, toBytes, List.take_of_length_le]
  | run length b => simp [drop, toBytes]

end Stretch

structure Contents where
  stretches : List Stretch
  deriving DecidableEq, Repr

namespace Contents

def empty : Contents :=
  ⟨[]⟩

def ofBytes (bs : Bytes) : Contents :=
  ⟨[.bytes bs.toArray]⟩

def replicate (length : Nat) (b : UInt8) : Contents :=
  ⟨[.run length b]⟩

def toBytes (c : Contents) : Bytes :=
  c.stretches.flatMap Stretch.toBytes

def size (c : Contents) : Nat :=
  (c.stretches.map Stretch.size).sum

def append (c d : Contents) : Contents :=
  ⟨c.stretches ++ d.stretches⟩

instance : Append Contents :=
  ⟨append⟩

@[simp] theorem toBytes_empty : empty.toBytes = [] := rfl

@[simp] theorem toBytes_ofBytes (bs : Bytes) : (ofBytes bs).toBytes = bs := by
  simp [ofBytes, toBytes, Stretch.toBytes]

@[simp] theorem toBytes_replicate (length : Nat) (b : UInt8) :
    (replicate length b).toBytes = List.replicate length b := by
  simp [replicate, toBytes, Stretch.toBytes]

@[simp] theorem toBytes_append (c d : Contents) : (c ++ d).toBytes = c.toBytes ++ d.toBytes := by
  change (append c d).toBytes = _
  simp [append, toBytes]

@[simp] theorem length_toBytes (c : Contents) : c.toBytes.length = c.size := by
  simp [toBytes, size, List.length_flatMap]

/-! ## Parts -/

def takeStretches : Nat → List Stretch → List Stretch
  | _, [] => []
  | n, s :: rest =>
    if n ≤ s.size then [s.take n] else s :: takeStretches (n - s.size) rest

def dropStretches : Nat → List Stretch → List Stretch
  | _, [] => []
  | n, s :: rest =>
    if n < s.size then s.drop n :: rest else dropStretches (n - s.size) rest

def take (n : Nat) (c : Contents) : Contents :=
  ⟨takeStretches n c.stretches⟩

def drop (n : Nat) (c : Contents) : Contents :=
  ⟨dropStretches n c.stretches⟩

@[simp] theorem toBytes_take (n : Nat) (c : Contents) :
    (c.take n).toBytes = c.toBytes.take n := by
  simp only [take, toBytes]
  fun_induction takeStretches n c.stretches with
  | case1 => simp
  | case2 n s rest inside =>
    have none_left : n - s.size = 0 := by omega
    simp [List.take_append, none_left]
  | case3 n s rest beyond ih =>
    have all : s.toBytes.take n = s.toBytes := List.take_of_length_le (by simp; omega)
    simp [List.take_append, all, ih]

@[simp] theorem toBytes_drop (n : Nat) (c : Contents) :
    (c.drop n).toBytes = c.toBytes.drop n := by
  simp only [drop, toBytes]
  fun_induction dropStretches n c.stretches with
  | case1 => simp
  | case2 n s rest inside =>
    have none_left : n - s.size = 0 := by omega
    simp [List.drop_append, none_left]
  | case3 n s rest beyond ih =>
    have all : s.toBytes.drop n = [] := List.drop_of_length_le (by simp; omega)
    simp [List.drop_append, all, ih]

/-! ## Storing -/

/-- The contents after `data` was stored over them from `offset` on. -/
def overwrite (target : Contents) (offset : Nat) (data : Contents) : Contents :=
  target.take offset ++ data ++ target.drop (offset + data.size)

/-- The contents after as much of `data` was stored over them from `offset` on as fits. -/
def overlay (target : Contents) (offset : Nat) (data : Contents) : Contents :=
  target.overwrite offset (data.take (target.size - offset))

/-- The contents cut or lengthened to a size; what is new in them is 0. -/
def resize (c : Contents) (size : Nat) : Contents :=
  if size ≤ c.size then c.take size else c ++ replicate (size - c.size) 0

/-- The contents after `data` was stored over them from `offset` on, which may be beyond their
end. -/
def store (target : Contents) (offset : Nat) (data : Contents) : Contents :=
  (if offset ≤ target.size then target else target.resize offset).overwrite offset data

@[simp] theorem toBytes_overwrite (target : Contents) (offset : Nat) (data : Contents) :
    (target.overwrite offset data).toBytes
      = Bytes.overwrite offset data.toBytes target.toBytes := by
  simp [overwrite, Bytes.overwrite]

@[simp] theorem toBytes_overlay (target : Contents) (offset : Nat) (data : Contents) :
    (target.overlay offset data).toBytes
      = Bytes.overlay offset data.toBytes target.toBytes := by
  simp [overlay, Bytes.overlay]

@[simp] theorem size_overlay (target : Contents) (offset : Nat) (data : Contents) :
    (target.overlay offset data).size = target.size := by
  rw [← length_toBytes, toBytes_overlay, Bytes.length_overlay, length_toBytes]

@[simp] theorem size_resize (c : Contents) (size : Nat) : (c.resize size).size = size := by
  rw [← length_toBytes, resize]
  split
  · next inside => simp; omega
  · next beyond => simp; omega

end Contents

end TraceRing.Files
