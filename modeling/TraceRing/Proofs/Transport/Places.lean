import TraceRing.Proofs.Consumer.Sweeps
import TraceRing.Proofs.Grid.Places
import TraceRing.Region
import TraceRing.Transport

/-!
# Cores and places

Coordinates are turned into a place by counting row by row, and what is checked is the place, not
the coordinates (`Grid.Reaches`). The cores of the grid have one place each. A core beyond the last
row has none, whatever its column. But a core in a row of the grid whose column is too large may
come out in a later row: a region, and a consumer, then take it for the core that is there
(`IsServedAs`, `Grid.outside_of_reaches`). All other coordinates are refused, and nothing is touched
(`IsRefused`).
-/

namespace TraceRing

open Files (Tree)

/-! ## The place of a core -/

namespace Grid

variable {grid : Grid} {core core' : Core} {place : Nat}

/-- Counted row by row, the core comes out at a place of the grid. -/
structure Reaches (grid : Grid) (core : Core) (place : Nat) : Prop where
  counted : core.row * grid.cols + core.col = place
  lt : place < grid.count

/-- Every core of the grid has a place. -/
theorem exists_reaches (h : grid.contains core = true) : ∃ place, grid.Reaches core place :=
  ⟨_, rfl, counted_lt_count h⟩

/-- A core of the grid stands at its place. -/
theorem coreAt_of_reaches (h : grid.contains core = true) (hplace : grid.Reaches core place) :
    grid.coreAt place = core := by
  rw [← hplace.counted]
  exact coreAt_counted (contains_iff.mp h).2

/-- At a place of the grid a core of the grid stands, and it is the only one there. -/
theorem reaches_coreAt (h : place < grid.count) :
    grid.contains (grid.coreAt place) = true ∧ grid.Reaches (grid.coreAt place) place :=
  ⟨contains_coreAt_iff.mpr h, grid.counted_coreAt place, h⟩

/-- Coordinates outside the grid that have a place are in a row of the grid, and the core that
stands at that place is in a later one. -/
theorem outside_of_reaches (h : grid.contains core = false) (hplace : grid.Reaches core place) :
    core.row < grid.rows ∧ grid.cols ≤ core.col ∧ core.row < (grid.coreAt place).row := by
  obtain ⟨hcounted, hlt⟩ := hplace
  have hrow : core.row < grid.rows := by
    refine Nat.lt_of_mul_lt_mul_right (a := grid.cols) ?_
    exact Nat.lt_of_le_of_lt (Nat.le_of_add_right_le (Nat.le_of_eq hcounted)) hlt
  have hcol : grid.cols ≤ core.col := by
    refine Nat.le_of_not_lt fun hcol => ?_
    rw [contains_iff.mpr ⟨hrow, hcol⟩] at h
    cases h
  refine ⟨hrow, hcol, ?_⟩
  rw [← hcounted, coreAt, Nat.add_comm, Nat.add_mul_div_right _ _ grid.cols_pos]
  exact Nat.lt_add_of_pos_left (Nat.div_pos hcol grid.cols_pos)

theorem index_of_reaches (hcount : grid.count ≤ 2 ^ 64) (h : grid.Reaches core place) :
    grid.index core = .ok place :=
  index_eq_ok_iff.mpr ⟨h.counted, Nat.lt_of_lt_of_le h.lt hcount⟩

end Grid

/-! ## Serving a core -/

/-- The core of an operation that has one. -/
def Transport.ConsumerOp.core? : ConsumerOp → Option Core
  | .move core => some core
  | .consumed core => some core
  | .received core => some core
  | .sweep => none
  | .run _ => none
  | .finish => none

/-- A transport over all rings of a grid. -/
structure Transport.IsOver {bits : Nat} {g : Geometry} (t : Transport bits g) (grid : Grid) :
    Prop where
  arranged : t.grid = grid
  lanes : t.lanes.length = grid.count

open Transport (ConsumerOp)

/-- Regions and consumers do for a core what they do for the one that stands at a place. -/
structure IsServedAs (grid : Grid) (core : Core) (place : Nat) : Prop where
  found : Region.place grid core = .ok place
  ring : ∀ {g : Geometry} (r : Region) (t : Tree) (op : Ring.Op g),
    r.runRing grid t core op = r.runRing grid t (grid.coreAt place) op
  lane : ∀ {bits : Nat} {g : Geometry} (t : Transport bits g), t.IsOver grid →
    ∃ l, t.lanes[place]? = some l ∧ t.laneOf core = .ok (place, l)
  move : ∀ {bits : Nat} {g : Geometry} (t : Transport bits g), t.IsOver grid →
    (t.runConsumer (.move core)).transport =
      (t.runConsumer (.move (grid.coreAt place))).transport
  consumed : ∀ {bits : Nat} {g : Geometry} (t : Transport bits g), t.IsOver grid →
    t.runConsumer (.consumed core) = t.runConsumer (.consumed (grid.coreAt place))
  received : ∀ {bits : Nat} {g : Geometry} (t : Transport bits g), t.IsOver grid →
    t.runConsumer (.received core) = t.runConsumer (.received (grid.coreAt place))

/-- Regions and consumers fault on a core and touch nothing. -/
structure IsRefused (grid : Grid) (core : Core) : Prop where
  ring : ∀ {g : Geometry} (r : Region) (t : Tree) (op : Ring.Op g),
    ∃ fault, r.runRing grid t core op = (.error fault, t)
  consumer : ∀ {bits : Nat} {g : Geometry} (t : Transport bits g), t.IsOver grid →
    ∀ op : ConsumerOp, op.core? = some core →
      ∃ fault, t.runConsumer op = ⟨.error fault, t, []⟩

variable {grid : Grid} {core : Core} {place : Nat}

/-- What a move does to the lane does not depend on the name of the core. -/
theorem Lane.lane_move {g : Geometry} (l : Lane g) (core core' : Core) (place : Nat)
    (verbose : Bool) :
    (l.move core place verbose).lane = (l.move core' place verbose).lane := by
  simp only [move]
  split
  · split <;> rfl
  · rfl

theorem Transport.transport_stepMove {bits : Nat} {g : Geometry} {t : Transport bits g}
    {core core' : Core} (h : t.laneOf core = t.laneOf core') :
    (t.stepMove core).transport = (t.stepMove core').transport := by
  simp only [stepMove, h]
  cases t.laneOf core' with
  | error fault => rfl
  | ok found =>
    simp only [Lane.lane_move found.2 core core', Lane.tripped_move]

theorem isServedAs (hcount : grid.count ≤ 2 ^ 64) (h : grid.Reaches core place) :
    IsServedAs grid core place := by
  have hindex := Grid.index_of_reaches hcount h
  have hindex' := Grid.index_of_reaches hcount (Grid.reaches_coreAt h.lt).2
  have hlane : ∀ {bits : Nat} {g : Geometry} (t : Transport bits g), t.IsOver grid →
      t.laneOf core = t.laneOf (grid.coreAt place) := by
    intro bits g t ht
    simp only [Transport.laneOf, ht.arranged, hindex, hindex']
  refine ⟨?_, fun r t op => ?_, fun t ht => ?_,
    fun t ht => Transport.transport_stepMove (hlane t ht), fun t ht => ?_, fun t ht => ?_⟩
  · simp only [Region.place, hindex, if_pos h.lt]
  · simp only [Region.runRing, Region.place, hindex, hindex']
  · have hlt : place < t.lanes.length := ht.lanes ▸ h.lt
    refine ⟨t.lanes[place], List.getElem?_eq_getElem hlt, ?_⟩
    simp only [Transport.laneOf, ht.arranged, hindex, List.getElem?_eq_getElem hlt]
  · simp only [Transport.runConsumer, hlane t ht]
  · simp only [Transport.runConsumer, hlane t ht]

theorem isRefused (h : ∀ place, ¬ grid.Reaches core place) : IsRefused grid core := by
  have hplace : ∀ place, grid.index core = .ok place → grid.count ≤ place := fun place hindex =>
    Nat.le_of_not_lt fun hlt => h place ⟨Grid.place_of_index hindex, hlt⟩
  refine ⟨fun r t op => ?_, fun t ht op hop => ?_⟩
  · obtain ⟨fault, hfault⟩ : ∃ fault, Region.place grid core = .error fault := by
      cases hindex : grid.index core with
      | error fault => exact ⟨fault, by simp only [Region.place, hindex]⟩
      | ok place =>
        refine ⟨.indexOutOfBounds grid.count place, ?_⟩
        simp only [Region.place, hindex, if_neg (Nat.not_lt.mpr (hplace place hindex))]
    exact ⟨fault, by simp only [Region.runRing, hfault]⟩
  · obtain ⟨fault, hfault⟩ : ∃ fault, t.laneOf core = .error fault := by
      cases hindex : grid.index core with
      | error fault => exact ⟨fault, by simp only [Transport.laneOf, ht.arranged, hindex]⟩
      | ok place =>
        have hnone : t.lanes[place]? = none :=
          List.getElem?_eq_none (ht.lanes ▸ hplace place hindex)
        refine ⟨.indexOutOfBounds t.lanes.length place, ?_⟩
        simp only [Transport.laneOf, ht.arranged, hindex, hnone]
    refine ⟨fault, ?_⟩
    cases op with
    | move other =>
      cases hop
      simp only [Transport.runConsumer, Transport.stepMove, hfault]
    | consumed other =>
      cases hop
      simp only [Transport.runConsumer, hfault]
      rfl
    | received other =>
      cases hop
      simp only [Transport.runConsumer, hfault]
      rfl
    | sweep => cases hop
    | run _ => cases hop
    | finish => cases hop

/-- The cores of a grid are served at places of their own. Outside the grid, coordinates that count
beyond the last place are refused; all others are in a row of the grid and are served as a core of
a later row. -/
theorem served_or_refused (hcount : grid.count ≤ 2 ^ 64) :
    (∀ core, grid.contains core = true →
      ∃ place, IsServedAs grid core place ∧ grid.coreAt place = core) ∧
    (∀ core core' place place', grid.contains core = true → grid.contains core' = true →
      core ≠ core' → IsServedAs grid core place → IsServedAs grid core' place' → place ≠ place') ∧
    (∀ core, grid.contains core = false → grid.count ≤ core.row * grid.cols + core.col →
      IsRefused grid core) ∧
    ∀ core, grid.contains core = false → core.row * grid.cols + core.col < grid.count →
      let other := grid.coreAt (core.row * grid.cols + core.col)
      IsServedAs grid core (core.row * grid.cols + core.col) ∧ grid.contains other = true ∧
        core.row < other.row ∧ grid.cols ≤ core.col := by
  refine ⟨fun core hcore => ?_, fun core core' place place' hcore hcore' hne h h' => ?_,
    fun core _ hbeyond => ?_, fun core hcore hlt => ?_⟩
  · obtain ⟨place, hplace⟩ := Grid.exists_reaches hcore
    exact ⟨place, isServedAs hcount hplace, Grid.coreAt_of_reaches hcore hplace⟩
  · obtain ⟨i, hi⟩ := Grid.exists_reaches hcore
    obtain ⟨j, hj⟩ := Grid.exists_reaches hcore'
    cases (isServedAs hcount hi).found.symm.trans h.found
    cases (isServedAs hcount hj).found.symm.trans h'.found
    rintro rfl
    exact hne ((Grid.coreAt_of_reaches hcore hi).symm.trans (Grid.coreAt_of_reaches hcore' hj))
  · refine isRefused fun place hplace => ?_
    exact Nat.not_lt.mpr hbeyond (hplace.counted ▸ hplace.lt)
  · have hplace : grid.Reaches core (core.row * grid.cols + core.col) := ⟨rfl, hlt⟩
    obtain ⟨-, hcol, hrow⟩ := Grid.outside_of_reaches hcore hplace
    exact ⟨isServedAs hcount hplace, (Grid.reaches_coreAt hlt).1, hrow, hcol⟩

/-- Two rows of eight cores. -/
def twoByEight : Grid :=
  ⟨2, 8, Nat.two_pos, Nat.succ_pos 7⟩

/-- Nothing refuses a ninth column in the first row: it is the second row's first. -/
theorem served_or_refused_of_ninth :
    twoByEight.count ≤ 2 ^ 64 ∧ IsRefused twoByEight ⟨2, 0⟩ ∧ IsServedAs twoByEight ⟨0, 8⟩ 8 ∧
      twoByEight.coreAt 8 = ⟨1, 0⟩ := by
  obtain ⟨-, -, hrefused, hserved⟩ :=
    served_or_refused (show twoByEight.count ≤ 2 ^ 64 by decide +kernel)
  exact ⟨by decide +kernel, hrefused ⟨2, 0⟩ (by decide) (by decide),
    (hserved ⟨0, 8⟩ (by decide) (by decide)).1, rfl⟩

/-- A core that is not in the grid gets at the ring of one that is: whatever is done to a region for
it is done to that ring, and a consumer moves a packet for it and counts it as moved. -/
theorem reached_from_outside :
    let outside : Core := ⟨0, 8⟩
    let t : Transport 32 .pair :=
      ⟨twoByEight, List.replicate 16 (Lane.new (Ring.empty .pair) .accepting), [], false, false,
        false⟩
    let pushed := (t.step (.ring 8 (.push (Packet.zero .pair)))).transport
    let moved := pushed.step (.consumer (.move outside))
    twoByEight.contains outside = false ∧
      (∀ (r : Region) (u : Tree) (op : Ring.Op .pair), ∃ answer u',
        r.runRing twoByEight u outside op = (.ok answer, u') ∧
          r.runRing twoByEight u ⟨1, 0⟩ op = (.ok answer, u')) ∧
      moved.result = .ok (.flag true) ∧
      (moved.transport.step (.consumer (.consumed ⟨1, 0⟩))).result = .ok (.moved 1 1) ∧
      (moved.transport.step (.consumer (.consumed outside))).result = .ok (.moved 1 1) := by
  refine ⟨by decide, fun r u op => ⟨_, _, ?_, rfl⟩, rfl, rfl, rfl⟩
  rfl

end TraceRing
