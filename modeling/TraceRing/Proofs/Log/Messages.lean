import TraceRing.Log.Bounded

/-!
# Messages cut to a buffer

However a message is cut into pieces, a buffer that is filled with them holds the first bytes of
the whole message, as many as fit, and behind them what it held before (`Log.fill_eq`). So the
message of a core depends on its level and on the bytes of its text alone
(`Log.coreMessage_eq`).
-/

namespace TraceRing

@[simp] theorem Bytes.ofText_append (a b : String) :
    Bytes.ofText (a ++ b) = Bytes.ofText a ++ Bytes.ofText b := by
  simp [Bytes.ofText]

namespace Log

namespace Cursor

variable {c : Cursor} {buffer text : Bytes}

/-- The cursor went over a buffer and wrote what fits of a text. -/
structure Wrote (c : Cursor) (buffer text : Bytes) : Prop where
  written : c.written = text.take buffer.length
  rest : c.rest = buffer.drop text.length

theorem Wrote.start (buffer : Bytes) : (start buffer).Wrote buffer [] where
  written := List.take_nil.symm
  rest := rfl

theorem Wrote.room (h : c.Wrote buffer text) : c.room = buffer.length - text.length := by
  rw [c.room_eq, h.rest, List.length_drop]

/-- The next piece goes behind the text, also where the buffer is full already. -/
theorem Wrote.write (h : c.Wrote buffer text) (piece : Bytes) :
    (c.write piece).Wrote buffer (text ++ piece) where
  written := by
    rw [written_write, h.written, h.room, List.take_append]
  rest := by
    rw [rest_write, h.rest, h.room, List.drop_drop, List.length_append, List.length_take]
    -- a piece that does not fit ends the buffer, and so does its cut
    rcases Nat.le_total piece.length (buffer.length - text.length) with hfits | hcut
    · rw [Nat.min_eq_right hfits]
    · rw [Nat.min_eq_left hcut, List.drop_of_length_le (by omega),
        List.drop_of_length_le (by omega)]

theorem Wrote.writeAll (h : c.Wrote buffer text) (pieces : List Bytes) :
    (pieces.foldl Cursor.write c).Wrote buffer (text ++ pieces.flatten) := by
  induction pieces generalizing c text with
  | nil => simpa using h
  | cons piece rest ih =>
    rw [List.foldl_cons, List.flatten_cons, ← List.append_assoc]
    exact ih (h.write piece)

end Cursor

/-- Filling a buffer stores the first bytes of the whole message over it. -/
theorem fill_eq (buffer : Bytes) (pieces : List Bytes) :
    fill buffer pieces = (min buffer.length pieces.flatten.length,
      pieces.flatten.take buffer.length ++ buffer.drop pieces.flatten.length) := by
  have hall := (Cursor.Wrote.start buffer).writeAll pieces
  rw [List.nil_append] at hall
  simp only [fill, Cursor.buffer, hall.written, hall.rest, List.length_take]

/-- The bytes of a message with its level in front of it. -/
def labelled (level : Level) (message : Bytes) : Bytes :=
  Bytes.ofText (level.name ++ ": ") ++ message

theorem flatten_corePieces (level : Level) (pieces : List Bytes) :
    (corePieces level pieces).flatten = labelled level pieces.flatten := by
  simp [corePieces, labelled]

/-- A core's message is the start of its text with the level in front. -/
theorem coreMessage_eq (level : Level) (pieces : List Bytes) :
    coreMessage level pieces = (labelled level pieces.flatten).take coreMessageSize := by
  rw [coreMessage, fill_eq, flatten_corePieces, List.length_replicate]
  exact List.take_left' List.length_take

end Log

end TraceRing
