import Mathlib.Data.List.Basic
import TraceRing.Proofs.Files.Paths
import TraceRing.Proofs.Files.Trees
import TraceRing.Proofs.Grid.Places
import TraceRing.Streams

/-!
# The names of streams

The name of a stream tells its core (`Core.streamName_injective`), and it can stand for an entry of
any directory: it is not long, and it has no byte that means something in a path
(`Streams.isPlain_name`, `Streams.slash_notMem_name`). So the order in which the streams are swept,
the places of the rings and the files they go to are three ways to tell the cores apart that agree
(`Grid.coordinates_agree`).
-/

namespace TraceRing

open Files (Name Place Tree Path.isAbsolute Path.join)

/-! ## Bytes of texts -/

namespace Bytes

theorem ofText_eq (text : String) : ofText text = text.toList.flatMap String.utf8EncodeChar := by
  have hbytes : text.toByteArray = text.toList.utf8Encode := String.utf8Encode_toList.symm
  rw [ofText, String.toUTF8, hbytes, List.utf8Encode]
  simp

theorem ofText_injective : Function.Injective ofText := by
  intro text text' h
  rw [← String.toByteArray_inj]
  exact ByteArray.ext (Array.toList_inj.mp h)

/-- A text of ASCII characters has one byte for each of them. -/
theorem ofText_of_ascii {text : String} (h : ∀ c ∈ text.toList, c.toNat < 128) :
    ofText text = text.toList.map fun c => UInt8.ofNat c.toNat := by
  rw [ofText_eq, List.map_eq_flatMap]
  refine List.flatMap_congr fun c hc => ?_
  have hc : c.val.toNat ≤ 127 := Nat.le_of_lt_succ (h c hc)
  simp only [String.utf8EncodeChar, hc, if_true]
  rfl

end Bytes

namespace Core

/-! ## Texts -/

theorem toList_streamName (core : Core) :
    core.streamName.toList =
      "stream-".toList ++ (Nat.toDigits 10 core.row ++ '-' :: Nat.toDigits 10 core.col) := by
  have hdash : "-".toList = ['-'] := rfl
  simp only [streamName, String.toList_append, Nat.toString_eq_ofList_toDigits,
    String.toList_ofList, hdash, List.append_assoc, List.singleton_append]

theorem dash_notMem_toDigits (n : Nat) : '-' ∉ Nat.toDigits 10 n := fun hmem =>
  absurd (Nat.isDigit_of_mem_toDigits (by decide) (by decide) hmem) (by decide)

theorem toDigits_injective {m n : Nat} (h : Nat.toDigits 10 m = Nat.toDigits 10 n) : m = n := by
  rw [← Nat.ofDigitChars_ten_toDigits (n := m), h, Nat.ofDigitChars_ten_toDigits]

/-- No two cores have streams of one name. -/
theorem streamName_injective : Function.Injective streamName := by
  intro core core' h
  have hlists := congrArg String.toList h
  rw [toList_streamName, toList_streamName, List.append_cancel_left_eq,
    List.append_cons_inj_of_notMem (dash_notMem_toDigits _) (dash_notMem_toDigits _)] at hlists
  obtain ⟨hrow, -, hcol⟩ := hlists
  cases core
  cases core'
  exact congrArg₂ Core.mk (toDigits_injective hrow) (toDigits_injective hcol)

/-- Dashes, digits and small letters. -/
theorem toNat_of_mem_streamName {core : Core} {c : Char} (h : c ∈ core.streamName.toList) :
    c.toNat = 45 ∨ (48 ≤ c.toNat ∧ c.toNat < 128) := by
  have hword : "stream-".toList.all (fun c =>
      decide (c.toNat = 45 ∨ (48 ≤ c.toNat ∧ c.toNat < 128))) = true := by decide
  have hdigit : ∀ {n}, c ∈ Nat.toDigits 10 n → 48 ≤ c.toNat ∧ c.toNat < 128 := by
    intro n hmem
    have hc := Nat.isDigit_of_mem_toDigits (by decide) (by decide) hmem
    simp only [Char.isDigit, Bool.and_eq_true, decide_eq_true_eq] at hc
    exact ⟨UInt32.le_iff_toNat_le.mp hc.1,
      Nat.lt_of_le_of_lt (UInt32.le_iff_toNat_le.mp hc.2) (by decide)⟩
  rw [toList_streamName, List.mem_append, List.mem_append, List.mem_cons] at h
  rcases h with hmem | hrow | rfl | hcol
  · exact of_decide_eq_true (List.all_eq_true.mp hword c hmem)
  · exact .inr (hdigit hrow)
  · exact .inl rfl
  · exact .inr (hdigit hcol)

theorem length_streamName_le {core : Core} (hrow : core.row < 2 ^ 64) (hcol : core.col < 2 ^ 64) :
    core.streamName.toList.length ≤ 48 := by
  have hdigits : ∀ {n}, n < 2 ^ 64 → (Nat.toDigits 10 n).length ≤ 20 := fun hn =>
    (Nat.length_toDigits_le_iff (by decide) (by decide)).mpr (Nat.lt_of_lt_of_le hn (by decide))
  have hword : "stream-".toList.length = 7 := rfl
  have hrow' := hdigits hrow
  have hcol' := hdigits hcol
  rw [toList_streamName, List.length_append, List.length_append, List.length_cons, hword]
  omega

end Core

/-! ## Names -/

namespace Streams

/-- The name of the stream of a core. -/
def name (core : Core) : Name :=
  Bytes.ofText core.streamName

variable {core core' : Core}

theorem name_injective : Function.Injective name :=
  Bytes.ofText_injective.comp Core.streamName_injective

theorem name_eq (core : Core) :
    name core = core.streamName.toList.map fun c => UInt8.ofNat c.toNat :=
  Bytes.ofText_of_ascii fun c hc => by
    have := Core.toNat_of_mem_streamName hc
    omega

theorem toNat_of_mem_name {b : UInt8} (h : b ∈ name core) : b.toNat = 45 ∨ 48 ≤ b.toNat := by
  rw [name_eq] at h
  obtain ⟨c, hc, rfl⟩ := List.mem_map.mp h
  have hrange := Core.toNat_of_mem_streamName hc
  rw [UInt8.toNat_ofNat_of_lt' (by simp only [UInt8.size]; omega)]
  omega

/-- No byte of a name separates names. -/
theorem slash_notMem_name (core : Core) : Files.slash ∉ name core := fun hmem =>
  absurd (toNat_of_mem_name hmem) (by decide)

theorem contains_name (core : Core) : (name core).contains 0 = false := by
  simp only [List.contains_eq_mem, decide_eq_false_iff_not]
  exact fun hmem => absurd (toNat_of_mem_name hmem) (by decide)

theorem length_name (core : Core) : (name core).length = core.streamName.toList.length := by
  rw [name_eq, List.length_map]

theorem length_name_pos (core : Core) : 2 < (name core).length := by
  have hword : "stream-".toList.length = 7 := rfl
  rw [length_name, Core.toList_streamName, List.length_append, hword]
  omega

theorem name_ne_nil (core : Core) : name core ≠ [] :=
  List.ne_nil_of_length_pos (Nat.lt_of_le_of_lt (Nat.zero_le 2) (length_name_pos core))

/-- The name of a stream can stand for an entry. -/
theorem isPlain_name (hrow : core.row < 2 ^ 64) (hcol : core.col < 2 ^ 64) :
    Tree.IsPlain (name core) where
  ne_dot heq := by
    have hlength := length_name_pos core
    rw [heq] at hlength
    exact absurd hlength (by decide)
  ne_dotDot heq := by
    have hlength := length_name_pos core
    rw [heq] at hlength
    exact absurd hlength (by decide)
  length_le := by
    rw [length_name]
    exact Nat.le_trans (Core.length_streamName_le hrow hcol) (by decide)

/-! ## Paths -/

/-- The path of the stream of a core. -/
def path (directory : Bytes) (core : Core) : Bytes :=
  Path.join directory (name core)

/-- The place of the stream of a core in a directory. -/
def place (number : Nat) (core : Core) : Place :=
  ⟨number, name core⟩

theorem place_injective (number : Nat) : Function.Injective (place number) := fun _ _ h =>
  name_injective (congrArg Place.name h)

/-- The streams of a directory have paths of their own. -/
theorem path_injective (directory : Bytes) : Function.Injective (path directory) := by
  have hrelative : ∀ core, Path.isAbsolute (name core) = false := fun core =>
    Files.Path.isAbsolute_of_notMem (slash_notMem_name core)
  intro core core' h
  simp only [path, Path.join, hrelative, Bool.false_eq_true, if_false] at h
  apply name_injective
  split at h
  · exact List.append_cancel_left h
  · exact List.tail_eq_of_cons_eq (List.append_cancel_left h)

end Streams

/-! ## Coordinates, places and names -/

/-- The coordinates of a core, its place and its stream tell each other. Every word is the place of
one core. A core whose column is not beyond the last has that place alone, in whatever row it is, if
the place is a word at all, and such cores are in the order of their places. The list of all cores
holds the valid ones, each once and in order. No two cores have one name for their streams, or one
path in a directory. -/
theorem Grid.coordinates_agree (grid : Grid) :
    (∀ i < 2 ^ 64, grid.index (grid.coreAt i) = .ok i) ∧
    (∀ core : Core, core.col < grid.cols → core.row * grid.cols + core.col < 2 ^ 64 →
      ∃ i, grid.index core = .ok i ∧ grid.coreAt i = core) ∧
    (∀ a b i j, a.col < grid.cols → b.col < grid.cols → grid.index a = .ok i →
      grid.index b = .ok j → (a < b ↔ i < j)) ∧
    (∀ core, core ∈ grid.cores ↔ grid.contains core = true) ∧ grid.cores.Nodup ∧
    grid.cores.Pairwise (· < ·) ∧ Function.Injective Core.streamName ∧
    ∀ directory, Function.Injective (Streams.path directory) := by
  refine ⟨fun i hi => grid.index_coreAt hi, fun core hcol hword => ?_,
    fun a b i j ha hb hi hj => ?_, fun _ => mem_cores_iff, grid.nodup_cores, grid.pairwise_cores,
    Core.streamName_injective, Streams.path_injective⟩
  · exact ⟨_, index_eq_ok_iff.mpr ⟨rfl, hword⟩, coreAt_counted hcol⟩
  · rw [← place_of_index hi, ← place_of_index hj]
    exact (counted_lt_iff ha hb).symm

/-- A row far beyond a grid of two rows and eight columns. -/
theorem Grid.coordinates_agree_of_farRow :
    let grid : Grid := ⟨2, 8, by decide, by decide⟩
    let far : Core := ⟨2 ^ 60, 7⟩
    far.col < grid.cols ∧ far.row * grid.cols + far.col < 2 ^ 64 ∧
      grid.index far = .ok (2 ^ 63 + 7) ∧ grid.coreAt (2 ^ 63 + 7) = far ∧
      (⟨1, 0⟩ : Core) < far := by
  intro grid far
  have hcounted : far.row * grid.cols + far.col = 2 ^ 63 + 7 := by decide
  have hword : far.row * grid.cols + far.col < 2 ^ 64 := by decide
  have hfirst : grid.index ⟨1, 0⟩ = .ok 8 := rfl
  obtain ⟨-, hplace, horder, -⟩ := grid.coordinates_agree
  obtain ⟨i, hi, hcore⟩ := hplace far (by decide) hword
  obtain rfl : 2 ^ 63 + 7 = i := hcounted.symm.trans (place_of_index hi)
  refine ⟨by decide, hword, hi, hcore, ?_⟩
  exact (horder ⟨1, 0⟩ far _ _ (by decide) (by decide) hfirst hi).mpr (by decide)

end TraceRing
