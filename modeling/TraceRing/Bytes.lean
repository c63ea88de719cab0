import TraceRing.Numbers

/-!
# Bytes

Byte strings, and the little-endian words stored in them. A word of `w` bytes read back is the
number that was written, as long as it fits (`value_word`).
-/

namespace TraceRing

abbrev Bytes := List UInt8

namespace Bytes

/-- The UTF-8 bytes of a text. -/
def ofText (text : String) : Bytes :=
  text.toUTF8.data.toList

/-! ## Words -/

/-- The `w` low bytes of a number, least significant first. -/
def word : Nat → Nat → Bytes
  | 0, _ => []
  | w + 1, n => UInt8.ofNat (n % 256) :: word w (n / 256)

/-- The number written by a little-endian byte string. -/
def value : Bytes → Nat
  | [] => 0
  | b :: bs => b.toNat + 256 * value bs

@[simp] theorem length_word (w n : Nat) : (word w n).length = w := by
  induction w generalizing n with
  | zero => rfl
  | succ w ih => simp [word, ih]

/-- Writing keeps what fits into the word. -/
theorem value_word (w n : Nat) : value (word w n) = n % 256 ^ w := by
  induction w generalizing n with
  | zero => simp [word, value, Nat.mod_one]
  | succ w ih =>
    have low : (UInt8.ofNat (n % 256)).toNat = n % 256 := by
      simp [UInt8.toNat_ofNat']
    rw [word, value, ih, low, Nat.pow_succ', Nat.mod_mul]

/-! ## Storing -/

/-- The byte string after `data` was stored over it from `offset` on. -/
def overwrite (offset : Nat) (data target : Bytes) : Bytes :=
  target.take offset ++ data ++ target.drop (offset + data.length)

theorem length_overwrite {offset : Nat} {data target : Bytes}
    (h : offset + data.length ≤ target.length) :
    (overwrite offset data target).length = target.length := by
  simp only [overwrite, List.length_append, List.length_take, List.length_drop]
  omega

/-- What was stored reads back, with what comes behind it. -/
theorem drop_overwrite_self {offset : Nat} {target : Bytes} (data : Bytes)
    (h : offset ≤ target.length) :
    (overwrite offset data target).drop offset = data ++ target.drop (offset + data.length) := by
  rw [overwrite, List.append_assoc, List.drop_left' (List.length_take_of_le h)]

/-- A part that the stored bytes do not touch stays as it was. -/
theorem take_drop_overwrite_of_apart {offset w start : Nat} {data target : Bytes}
    (hinside : start + data.length ≤ target.length)
    (hapart : offset + w ≤ start ∨ start + data.length ≤ offset) :
    ((overwrite start data target).drop offset).take w = (target.drop offset).take w := by
  have hstart : (target.take start).length = start :=
    List.length_take_of_le (Nat.le_trans (Nat.le_add_right ..) hinside)
  rcases hapart with hbefore | hbehind
  · rw [overwrite, List.append_assoc, List.drop_append_of_le_length (by omega),
      List.take_append_of_le_length (by rw [List.length_drop]; omega), List.drop_take,
      List.take_take, Nat.min_eq_left (by omega)]
  · have hlength : (target.take start ++ data).length = start + data.length := by
      rw [List.length_append, hstart]
    rw [overwrite, List.drop_append, List.drop_of_length_le (by omega), List.nil_append,
      List.drop_drop, hlength, Nat.add_sub_cancel' hbehind]

/-- The byte string after as much of `data` was stored over it from `offset` on as fits. -/
def overlay (offset : Nat) (data target : Bytes) : Bytes :=
  overwrite offset (data.take (target.length - offset)) target

@[simp] theorem length_overlay (offset : Nat) (data target : Bytes) :
    (overlay offset data target).length = target.length := by
  simp only [overlay, overwrite, List.length_append, List.length_take, List.length_drop]
  omega

end Bytes

end TraceRing
