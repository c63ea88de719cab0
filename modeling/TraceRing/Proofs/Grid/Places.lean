import TraceRing.Grid

/-!
# Cores and their places

Counting row by row and dividing by the number of columns undo each other, for every place
(`Grid.counted_coreAt`) and for every core whose column is not beyond the last, in whatever row it
is (`Grid.coreAt_counted`). Both keep the order (`Grid.counted_lt_iff`). The cores of a grid in the
order of their places are therefore all valid ones, each once, in their own order
(`Grid.mem_cores_iff`, `Grid.pairwise_cores`).
-/

namespace TraceRing.Grid

variable {grid : Grid} {a b core : Core} {i j place : Nat}

/-! ## Counting -/

theorem counted_coreAt (grid : Grid) (i : Nat) :
    (grid.coreAt i).row * grid.cols + (grid.coreAt i).col = i := by
  rw [Nat.mul_comm]
  exact Nat.div_add_mod i grid.cols

theorem col_coreAt_lt (grid : Grid) (i : Nat) : (grid.coreAt i).col < grid.cols :=
  Nat.mod_lt i grid.cols_pos

theorem coreAt_counted (h : core.col < grid.cols) :
    grid.coreAt (core.row * grid.cols + core.col) = core := by
  rw [coreAt, Nat.add_comm, Nat.add_mul_div_right _ _ grid.cols_pos, Nat.add_mul_mod_self_right,
    Nat.div_eq_of_lt h, Nat.mod_eq_of_lt h, Nat.zero_add]

theorem coreAt_inj (h : grid.coreAt i = grid.coreAt j) : i = j := by
  rw [← grid.counted_coreAt i, h, counted_coreAt]

/-- A row comes after all of the rows before it, so the order of the cores is that of the places. -/
theorem counted_lt_iff (ha : a.col < grid.cols) (hb : b.col < grid.cols) :
    a.row * grid.cols + a.col < b.row * grid.cols + b.col ↔ a < b := by
  have hrows : ∀ {c d : Core}, c.col < grid.cols → c.row < d.row →
      c.row * grid.cols + c.col < d.row * grid.cols + d.col := by
    intro c d hc hrow
    calc c.row * grid.cols + c.col
        < c.row * grid.cols + grid.cols := Nat.add_lt_add_left hc _
      _ = (c.row + 1) * grid.cols := (Nat.succ_mul c.row grid.cols).symm
      _ ≤ d.row * grid.cols := Nat.mul_le_mul_right grid.cols hrow
      _ ≤ d.row * grid.cols + d.col := Nat.le_add_right ..
  rw [Core.lt_iff]
  rcases Nat.lt_trichotomy a.row b.row with hlt | heq | hgt
  · exact iff_of_true (hrows ha hlt) (.inl hlt)
  · rw [heq, Nat.add_lt_add_iff_left]
    simp
  · have hcounted := hrows hb hgt
    refine iff_of_false (Nat.lt_asymm hcounted) ?_
    rintro (hlt | ⟨heq, -⟩)
    · exact Nat.lt_asymm hlt hgt
    · exact Nat.ne_of_gt hgt heq

/-! ## Words -/

/-- The place of a core, if it fits a word. -/
theorem index_eq_ok_iff :
    grid.index core = .ok place ↔
      core.row * grid.cols + core.col = place ∧ place < 2 ^ 64 := by
  rw [index]
  split
  · next hproduct =>
    refine iff_of_false (fun h => by cases h) ?_
    rintro ⟨rfl, hlt⟩
    omega
  · split
    · next hsum =>
      refine iff_of_false (fun h => by cases h) ?_
      rintro ⟨rfl, hlt⟩
      omega
    · next hsum =>
      rw [Except.ok.injEq]
      constructor
      · rintro rfl
        exact ⟨rfl, Nat.lt_of_not_le hsum⟩
      · exact And.left

theorem place_of_index (h : grid.index core = .ok place) :
    core.row * grid.cols + core.col = place :=
  (index_eq_ok_iff.mp h).1

/-- The core at a place has no other place. -/
theorem eq_of_index_coreAt (h : grid.index (grid.coreAt i) = .ok place) : i = place := by
  rw [← place_of_index h, counted_coreAt]

/-! ## All cores of a grid -/

theorem contains_iff : grid.contains core = true ↔ core.row < grid.rows ∧ core.col < grid.cols := by
  simp only [contains, Bool.and_eq_true, decide_eq_true_eq]

/-- The valid cores are those at the places of the grid. -/
theorem contains_coreAt_iff : grid.contains (grid.coreAt i) = true ↔ i < grid.count := by
  rw [contains_iff, and_iff_left (grid.col_coreAt_lt i)]
  exact Nat.div_lt_iff_lt_mul grid.cols_pos

/-- A valid core counts less than there are cores. -/
theorem counted_lt_count (h : grid.contains core = true) :
    core.row * grid.cols + core.col < grid.count := by
  rw [← coreAt_counted (contains_iff.mp h).2] at h
  exact contains_coreAt_iff.mp h

theorem mem_cores_iff : core ∈ grid.cores ↔ grid.contains core = true := by
  rw [cores, List.mem_map]
  constructor
  · rintro ⟨i, hi, rfl⟩
    exact contains_coreAt_iff.mpr (List.mem_range.mp hi)
  · intro h
    exact ⟨_, List.mem_range.mpr (counted_lt_count h), coreAt_counted (contains_iff.mp h).2⟩

theorem pairwise_cores (grid : Grid) : grid.cores.Pairwise (· < ·) := by
  refine List.Pairwise.map _ (fun i j hlt => ?_) List.pairwise_lt_range
  rwa [← counted_lt_iff (grid.col_coreAt_lt i) (grid.col_coreAt_lt j), counted_coreAt,
    counted_coreAt]

theorem nodup_cores (grid : Grid) : grid.cores.Nodup :=
  List.Pairwise.map _ (fun _ _ hne heq => hne (coreAt_inj heq)) List.nodup_range

end TraceRing.Grid
