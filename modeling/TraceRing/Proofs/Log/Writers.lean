import TraceRing.Proofs.Log.Messages

/-!
# Writers with checked ranges

A buffer that is filled is, on a machine, a buffer with a position in it: what is left behind the
position is a difference, and the bytes go from a range of the piece to a range of the buffer. A
`Log.Writer` does every one of these steps with a check and ends in nothing if one fails. None ever
does: the writer goes along with the cursor of `Log.fill` piece by piece (`Log.Writer.Follows`),
also when any number of pieces comes after the buffer is full, and what it leaves is the start of
the whole message over the buffer (`Log.fill_truncates`).
-/

namespace TraceRing

/-! ## Checked steps -/

/-- A difference of sizes, which is none where it would be negative. -/
def minus? (a b : Nat) : Option Nat :=
  if b ≤ a then some (a - b) else none

/-- The bytes of a range, which has to lie inside. -/
def Bytes.slice? (bytes : Bytes) (start stop : Nat) : Option Bytes :=
  if start ≤ stop ∧ stop ≤ bytes.length then some ((bytes.drop start).take (stop - start))
  else none

theorem minus?_of_le {a b : Nat} (h : b ≤ a) : minus? a b = some (a - b) :=
  if_pos h

theorem Bytes.slice?_of_le {bytes : Bytes} {start stop : Nat} (hle : start ≤ stop)
    (hinside : stop ≤ bytes.length) :
    bytes.slice? start stop = some ((bytes.drop start).take (stop - start)) :=
  if_pos ⟨hle, hinside⟩

/-- The range that starts where the first part of the bytes ends. -/
theorem Bytes.slice?_append {written rest : Bytes} {n : Nat} (h : n ≤ rest.length) :
    (written ++ rest : Bytes).slice? written.length (written.length + n) = some (rest.take n) := by
  have hinside : written.length + n ≤ (written ++ rest).length := by
    rw [List.length_append]
    exact Nat.add_le_add_left h _
  rw [slice?_of_le (Nat.le_add_right ..) hinside, List.drop_left, Nat.add_sub_cancel_left]

namespace Log

/-- A buffer, and how much of it was written. -/
structure Writer where
  buffer : Bytes
  position : Nat

namespace Writer

/-- Nothing written yet. -/
def start (buffer : Bytes) : Writer :=
  ⟨buffer, 0⟩

/-- Writes as much of a piece as there is room for: the room, the range of the buffer and that of
the piece have to exist, and the two ranges have to be of one length. The end of a range that exists
is no greater than the size of the buffer, so the sum itself cannot be too large. -/
def write? (w : Writer) (piece : Bytes) : Option Writer := do
  let room ← minus? w.buffer.length w.position
  let count := min piece.length room
  let target ← w.buffer.slice? w.position (w.position + count)
  let source ← piece.slice? 0 count
  if source.length = target.length then
    some ⟨Bytes.overwrite w.position source w.buffer, w.position + count⟩
  else none

/-- Writes the pieces of a message one after the other. -/
def writeAll? (w : Writer) (pieces : List Bytes) : Option Writer :=
  pieces.foldlM write? w

/-! ## Writers and cursors -/

/-- The writer has the buffer of a cursor, and stands where the cursor does. -/
structure Follows (w : Writer) (c : Cursor) : Prop where
  buffer : w.buffer = c.written ++ c.rest
  position : w.position = c.written.length

variable {w : Writer} {c : Cursor}

theorem follows_start (buffer : Bytes) : (start buffer).Follows (Cursor.start buffer) where
  buffer := rfl
  position := rfl

theorem Follows.minus?_eq (h : w.Follows c) : minus? w.buffer.length w.position = some c.room := by
  have hsize : w.buffer.length = c.room + w.position := by
    rw [h.buffer, h.position, List.length_append, c.room_eq, Nat.add_comm]
  rw [hsize, minus?_of_le (Nat.le_add_left ..), Nat.add_sub_cancel]

/-- No step of a writer fails, and it goes on along with the cursor. -/
theorem Follows.write (h : w.Follows c) (piece : Bytes) :
    ∃ w', w.write? piece = some w' ∧ w'.Follows (c.write piece) := by
  let part := piece.take c.room
  have hpart : part.length = min piece.length c.room := by
    rw [List.length_take, Nat.min_comm]
  have hfits : part.length ≤ c.rest.length := by
    rw [hpart, ← c.room_eq]
    exact Nat.min_le_right ..
  have htarget : w.buffer.slice? w.position (w.position + part.length) =
      some (c.rest.take part.length) := by
    rw [h.buffer, h.position, Bytes.slice?_append hfits]
  have hsource : piece.slice? 0 part.length = some part := by
    have hcut : part = piece.take part.length :=
      List.prefix_iff_eq_take.mp (List.take_prefix c.room piece)
    rw [Bytes.slice?_of_le (Nat.zero_le _) (by omega), List.drop_zero, Nat.sub_zero, ← hcut]
  have hlength : part.length = (c.rest.take part.length).length :=
    (List.length_take_of_le hfits).symm
  refine ⟨⟨Bytes.overwrite w.position part w.buffer, w.position + part.length⟩, ?_, ?_, ?_⟩
  · simp only [write?, h.minus?_eq, ← hpart, htarget, hsource, Option.bind_eq_bind,
      Option.bind_some, ← hlength, if_true]
  · rw [Bytes.overwrite, h.buffer, h.position, List.take_left, List.drop_length_add_append,
      Cursor.written_write, Cursor.rest_write]
  · rw [h.position, Cursor.written_write, List.length_append]

theorem Follows.writeAll (h : w.Follows c) (pieces : List Bytes) :
    ∃ w', w.writeAll? pieces = some w' ∧ w'.Follows (pieces.foldl Cursor.write c) := by
  induction pieces generalizing w c with
  | nil => exact ⟨w, rfl, h⟩
  | cons piece rest ih =>
    obtain ⟨next, hnext, hfollows⟩ := h.write piece
    obtain ⟨last, hlast, hends⟩ := ih hfollows
    refine ⟨last, ?_, hends⟩
    rw [writeAll?, List.foldlM_cons, hnext]
    exact hlast

/-- With every range checked, a message is written as `fill` writes it. -/
theorem writeAll?_start (buffer : Bytes) (pieces : List Bytes) :
    (start buffer).writeAll? pieces = some ⟨(fill buffer pieces).2, (fill buffer pieces).1⟩ := by
  obtain ⟨⟨written, position⟩, hwrites, hbuffer, hposition⟩ :=
    (follows_start buffer).writeAll pieces
  rw [hwrites, fill, Cursor.buffer, ← hbuffer, ← hposition]

end Writer

/-- A message is written as far as the buffer goes. The number that is answered is the size of the
whole message or that of the buffer, whichever is less; the buffer starts with so many bytes of the
message and is otherwise as it was. How the message is cut into pieces makes no difference, and no
piece, with however many before it and behind it, makes a difference of sizes or a range that does
not exist. -/
theorem fill_truncates (buffer : Bytes) (pieces : List Bytes) :
    let whole := pieces.flatten
    let count := (fill buffer pieces).1
    let filled := (fill buffer pieces).2
    count = min buffer.length whole.length ∧ filled.length = buffer.length ∧
      filled.take count = whole.take count ∧ filled.drop count = buffer.drop count ∧
      fill buffer [whole] = fill buffer pieces ∧
      (Writer.start buffer).writeAll? pieces = some ⟨filled, count⟩ := by
  intro whole count filled
  have hcount : count = min buffer.length whole.length := congrArg Prod.fst (fill_eq buffer pieces)
  have hfilled : filled = whole.take buffer.length ++ buffer.drop whole.length :=
    congrArg Prod.snd (fill_eq buffer pieces)
  have hpart : (whole.take buffer.length).length = count := by
    rw [hcount, List.length_take]
  have hstart : whole.take buffer.length = whole.take count := by
    rw [← hpart]
    exact List.prefix_iff_eq_take.mp (List.take_prefix ..)
  have hrest : buffer.drop whole.length = buffer.drop count := by
    rcases Nat.le_total whole.length buffer.length with hfits | hcut
    · rw [hcount, Nat.min_eq_right hfits]
    · rw [hcount, Nat.min_eq_left hcut, List.drop_length, List.drop_of_length_le hcut]
  refine ⟨hcount, ?_, ?_, ?_, ?_, Writer.writeAll?_start buffer pieces⟩
  · rw [hfilled, List.length_append, hpart, List.length_drop]
    omega
  · rw [hfilled, List.take_left' hpart, hstart]
  · rw [hfilled, List.drop_left' hpart, hrest]
  · rw [fill_eq, fill_eq, List.flatten_singleton]

/-- The second piece goes over the end of the buffer, and the third one finds it full. -/
example : fill [0, 0, 0, 0] [[1, 2], [3, 4, 5], [6]] = (4, [1, 2, 3, 4]) := rfl

end Log

end TraceRing
