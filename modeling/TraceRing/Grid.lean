import TraceRing.Fault
import TraceRing.Numbers

/-!
# The grid of cores

Producer cores form a grid. Their rings lie in memory row by row, and a consumer visits them in
that order; `Grid.index` is the place of a core in it. Coordinates outside the grid are allowed
to be named, so a place may be asked for a core that has none: the answer is then some number, or
a fault if the number does not fit a 64-bit word.
-/

namespace TraceRing

/-! ## Coordinates -/

/-- The coordinates of a producer core. -/
structure Core where
  row : Nat
  col : Nat
  deriving DecidableEq, Repr, Inhabited

namespace Core

/-- Cores are ordered by row, and by column within a row. -/
instance : LT Core := ⟨fun a b => a.row < b.row ∨ (a.row = b.row ∧ a.col < b.col)⟩

instance : DecidableLT Core := fun a b =>
  inferInstanceAs (Decidable (a.row < b.row ∨ (a.row = b.row ∧ a.col < b.col)))

theorem lt_iff {a b : Core} : a < b ↔ a.row < b.row ∨ (a.row = b.row ∧ a.col < b.col) :=
  Iff.rfl

def display (c : Core) : String :=
  "(" ++ toString c.row ++ ", " ++ toString c.col ++ ")"

def streamName (c : Core) : String :=
  "stream-" ++ toString c.row ++ "-" ++ toString c.col

def sort (cores : List Core) : List Core :=
  cores.mergeSort fun a b => decide (¬ b < a)

end Core

/-! ## Grids -/

/-- A grid of cores, neither side empty. -/
structure Grid where
  rows : Nat
  cols : Nat
  rows_pos : 0 < rows := by decide
  cols_pos : 0 < cols := by decide
  deriving DecidableEq

namespace Grid

def count (g : Grid) : Nat :=
  g.rows * g.cols

/-- The place of a core, row by row, computed in 64-bit words. -/
def index (g : Grid) (c : Core) : Except Fault Nat :=
  if 2 ^ 64 ≤ c.row * g.cols then .error .productOverflow
  else if 2 ^ 64 ≤ c.row * g.cols + c.col then .error .sumOverflow
  else .ok (c.row * g.cols + c.col)

/-- The core at a place. -/
def coreAt (g : Grid) (i : Nat) : Core :=
  ⟨i / g.cols, i % g.cols⟩

def contains (g : Grid) (c : Core) : Bool :=
  c.row < g.rows && c.col < g.cols

/-- Every core, in the order of the places. -/
def cores (g : Grid) : List Core :=
  (List.range g.count).map g.coreAt

theorem count_pos (g : Grid) : 0 < g.count :=
  Nat.mul_pos g.rows_pos g.cols_pos

@[simp] theorem length_cores (g : Grid) : g.cores.length = g.count := by
  simp [cores]

/-- The place of the core at a place is that place. -/
theorem index_coreAt (g : Grid) {i : Nat} (h : i < 2 ^ 64) : g.index (g.coreAt i) = .ok i := by
  have split : i / g.cols * g.cols + i % g.cols = i := by
    rw [Nat.mul_comm]; exact Nat.div_add_mod i g.cols
  have low : ¬ 2 ^ 64 ≤ i / g.cols * g.cols := by omega
  simp only [index, coreAt, low, split, if_false]
  rw [if_neg (by omega)]

end Grid

end TraceRing
