import TraceRing.Bytes
import TraceRing.Log.Level

/-!
# Bounded messages

A core formats its messages without allocating: the pieces of a message are written one after the
other into a buffer of fixed size, and what does not fit is cut off. Nothing is ever written
outside the buffer, however many pieces follow once it is full.
-/

namespace TraceRing.Log

/-- A buffer that is being filled from its start. -/
structure Cursor where
  /-- What was written so far, the last part first. -/
  parts : List Bytes
  /-- What is left of the buffer. -/
  rest : Bytes
  room : Nat
  room_eq : room = rest.length

namespace Cursor

/-- Nothing written yet. -/
def start (buffer : Bytes) : Cursor :=
  ⟨[], buffer, buffer.length, rfl⟩

def written (c : Cursor) : Bytes :=
  c.parts.reverse.flatten

def buffer (c : Cursor) : Bytes :=
  c.written ++ c.rest

/-- Writes as much of a piece as fits. -/
def write (c : Cursor) (piece : Bytes) : Cursor :=
  let part := piece.take c.room
  ⟨part :: c.parts, c.rest.drop part.length, c.room - part.length, by
    rw [List.length_drop, c.room_eq]⟩

@[simp] theorem written_write (c : Cursor) (piece : Bytes) :
    (c.write piece).written = c.written ++ piece.take c.room := by
  simp [written, write]

@[simp] theorem rest_write (c : Cursor) (piece : Bytes) :
    (c.write piece).rest = c.rest.drop (piece.take c.room).length := rfl

end Cursor

/-- Writes the pieces of a message into a buffer: the number of bytes written, and the buffer. -/
def fill (buffer : Bytes) (pieces : List Bytes) : Nat × Bytes :=
  let c := pieces.foldl Cursor.write (Cursor.start buffer)
  (c.written.length, c.buffer)

/-- The pieces of a core's message: its level, a colon, and the pieces of its text. -/
def corePieces (level : Level) (pieces : List Bytes) : List Bytes :=
  Bytes.ofText level.name :: Bytes.ofText ": " :: pieces

def coreMessageSize : Nat := 256

/-- A core's message, cut to the longest one. -/
def coreMessage (level : Level) (pieces : List Bytes) : Bytes :=
  let written := fill (List.replicate coreMessageSize 0) (corePieces level pieces)
  written.2.take written.1

end TraceRing.Log
