import TraceRing.Bytes

/-!
# Lossy decoding of UTF-8

Any byte string is shown as text: well-formed UTF-8 stands for itself, and each longest run of
bytes that starts a character without finishing one becomes a single replacement character. A
byte that cannot start a character is such a run of its own.
-/

namespace TraceRing.Text

/-- What stands for bytes that are no character. -/
def replacement : Char := Char.ofNat 0xFFFD

/-- What a first byte above `0x7F` announces: the number of bytes still owed, the range of the
next one, and the bits the first byte contributes. -/
structure Lead where
  owed : Nat
  low : UInt8
  high : UInt8
  bits : Nat

/-- The characters a byte above `0x7F` can start, if any. The ranges of the second byte leave out
overlong forms, surrogates and everything above `0x10FFFF`. -/
def lead (b : UInt8) : Option Lead :=
  if 0xC2 ≤ b ∧ b ≤ 0xDF then some ⟨1, 0x80, 0xBF, b.toNat % 32⟩
  else if b = 0xE0 then some ⟨2, 0xA0, 0xBF, 0⟩
  else if b = 0xED then some ⟨2, 0x80, 0x9F, 13⟩
  else if 0xE1 ≤ b ∧ b ≤ 0xEF then some ⟨2, 0x80, 0xBF, b.toNat % 16⟩
  else if b = 0xF0 then some ⟨3, 0x90, 0xBF, 0⟩
  else if b = 0xF4 then some ⟨3, 0x80, 0x8F, 4⟩
  else if 0xF1 ≤ b ∧ b ≤ 0xF3 then some ⟨3, 0x80, 0xBF, b.toNat % 8⟩
  else none

/-- Reads the bytes a character still owes; the first that does not fit ends it and is left. -/
def finishChar : (owed : Nat) → (low high : UInt8) → (bits : Nat) → Bytes → Char × Bytes
  | 0, _, _, bits, rest => (Char.ofNat bits, rest)
  | _ + 1, _, _, _, [] => (replacement, [])
  | owed + 1, low, high, bits, b :: rest =>
    if low ≤ b ∧ b ≤ high then finishChar owed 0x80 0xBF (bits * 64 + b.toNat % 64) rest
    else (replacement, b :: rest)

theorem length_finishChar (owed : Nat) (low high : UInt8) (bits : Nat) (bytes : Bytes) :
    (finishChar owed low high bits bytes).2.length ≤ bytes.length := by
  induction owed generalizing low high bits bytes with
  | zero => simp [finishChar]
  | succ owed ih =>
    cases bytes with
    | nil => simp [finishChar]
    | cons b rest =>
      rw [finishChar]
      split
      · exact Nat.le_trans (ih ..) (Nat.le_succ _)
      · exact Nat.le_refl _

/-- One character off the front of a nonempty byte string, and what is left. -/
def nextChar (b : UInt8) (rest : Bytes) : Char × Bytes :=
  if b < 0x80 then (Char.ofNat b.toNat, rest)
  else
    match lead b with
    | none => (replacement, rest)
    | some l => finishChar l.owed l.low l.high l.bits rest

theorem length_nextChar (b : UInt8) (rest : Bytes) :
    (nextChar b rest).2.length ≤ rest.length := by
  unfold nextChar
  split
  · exact Nat.le_refl _
  · split
    · exact Nat.le_refl _
    · exact length_finishChar ..

/-- The characters a byte string is shown as. -/
def lossyChars : Bytes → List Char
  | [] => []
  | b :: rest => (nextChar b rest).1 :: lossyChars (nextChar b rest).2
termination_by bytes => bytes.length
decreasing_by exact Nat.lt_succ_of_le (length_nextChar b rest)

/-- The text a byte string is shown as. -/
def lossy (bytes : Bytes) : String :=
  String.ofList (lossyChars bytes)

end TraceRing.Text
