import TraceRing.Proofs.Consumer.Tours
import TraceRing.Proofs.Grid.Places

/-!
# Visits

A sweep visits one lane after the other. As long as no write fails and no shutdown is requested it
visits all of them (`Consumer.sweepFrom_of_calm`), and what it does to a lane, and the events it
shows of it, depend on that lane alone. A change of the lanes that is not noticed in one move is
not noticed in any number of sweeps (`Consumer.drain_map`). Where all rings are empty a consumer
writes nothing (`Consumer.sweepOn_of_empty`).
-/

namespace TraceRing

variable {g : Geometry}

/-- Whether an event is of the consumer's work at a place. -/
def Event.isOf (grid : Grid) (place : Nat) : Event → Bool
  | .log (.packetFound core ..) | .log (.coreText core _) => core = grid.coreAt place
  | .write q _ => q = place
  | _ => false

def Event.isWrite : Event → Bool
  | .write .. => true
  | _ => false

namespace Lane

/-- A move, and the report of a text after it. -/
def visit (l : Lane g) (core : Core) (place : Nat) (verbose : Bool) : Lane g × List Event :=
  let m := l.move core place verbose
  let reported := m.lane.reportText core
  (reported.2, m.events ++ reported.1)

/-- The next move neither fails nor requests shutdown. -/
structure IsCalm (l : Lane g) (core : Core) (place : Nat) (verbose : Bool) : Prop where
  moves : ∃ moved, (l.move core place verbose).result = .ok moved
  goesOn : (l.move core place verbose).tripped = false

/-! ## Empty rings -/

theorem isCalm_of_empty {l : Lane g} (h : l.IsEmpty) (core : Core) (place : Nat)
    (verbose : Bool) : l.IsCalm core place verbose := by
  have hmove := move_of_empty h core place verbose
  exact ⟨⟨false, by rw [hmove]⟩, by rw [hmove]⟩

theorem isEmpty_visit {l : Lane g} (h : l.IsEmpty) (core : Core) (place : Nat) (verbose : Bool) :
    (l.visit core place verbose).1.IsEmpty := by
  simpa only [visit, move_of_empty h, IsEmpty, ring_reportText] using h

/-! ## The events of a visit -/

/-- The events of a move are of its place, and named by its core. -/
theorem isOf_move (grid : Grid) (l : Lane g) {core : Core} {p q : Nat} (verbose : Bool)
    (hcore : core = grid.coreAt q ↔ p = q) {e : Event}
    (he : e ∈ (l.move core p verbose).events) : e.isOf grid q = decide (p = q) := by
  have hfound : ∀ c, e ∈ (if verbose then
      [Event.log (.packetFound core l.ring.producerIndex c (Ring.slot g c))] else []) ++
        ((writeAll l.sink.script (l.ring.getSlot c).toList).offers.map (Event.write p)) →
      e.isOf grid q = decide (p = q) := by
    intro c hmem
    rcases List.mem_append.mp hmem with hnotice | hoffer
    · split at hnotice
      · obtain rfl := List.mem_singleton.mp hnotice
        simp only [Event.isOf, hcore]
      · cases hnotice
    · obtain ⟨offer, -, rfl⟩ := List.mem_map.mp hoffer
      rfl
  simp only [move] at he
  split at he
  · split at he <;> exact hfound _ he
  · cases he

theorem isOf_reportText (grid : Grid) (l : Lane g) {p q : Nat} {e : Event}
    (he : e ∈ (l.reportText (grid.coreAt p)).1) : e.isOf grid q = decide (p = q) := by
  simp only [reportText] at he
  split at he
  · cases he
  · obtain rfl := List.mem_singleton.mp he
    simp only [Event.isOf]
    exact decide_eq_decide.mpr ⟨Grid.coreAt_inj, fun heq => heq ▸ rfl⟩

theorem isWrite_reportText {l : Lane g} {core : Core} {e : Event}
    (he : e ∈ (l.reportText core).1) : e.isWrite = false := by
  simp only [reportText] at he
  split at he
  · cases he
  · obtain rfl := List.mem_singleton.mp he
    rfl

theorem isOf_visit (grid : Grid) (l : Lane g) (p q : Nat) (verbose : Bool) {e : Event}
    (he : e ∈ (l.visit (grid.coreAt p) p verbose).2) : e.isOf grid q = decide (p = q) := by
  rcases List.mem_append.mp he with hmove | hreport
  · exact isOf_move grid l verbose ⟨Grid.coreAt_inj, fun heq => heq ▸ rfl⟩ hmove
  · exact isOf_reportText grid _ hreport

theorem filter_visit (grid : Grid) (l : Lane g) (p q : Nat) (verbose : Bool) :
    (l.visit (grid.coreAt p) p verbose).2.filter (·.isOf grid q) =
      if p = q then (l.visit (grid.coreAt p) p verbose).2 else [] := by
  split
  · next heq =>
    refine List.filter_eq_self.mpr fun e he => ?_
    rw [isOf_visit grid l p q verbose he, decide_eq_true heq]
  · next hne =>
    refine List.filter_eq_nil_iff.mpr fun e he => ?_
    rw [isOf_visit grid l p q verbose he, decide_eq_false hne]
    exact Bool.false_ne_true

/-- A change of lanes that the consumer does not notice: of a changed lane it moves the same
packets, and makes the changed one of what it makes of the lane itself. -/
structure Unnoticed (f : Lane g → Lane g) : Prop where
  move : ∀ (l : Lane g) (core : Core) (place : Nat) (verbose : Bool),
    ((f l).move core place verbose).result = (l.move core place verbose).result ∧
      ((f l).move core place verbose).lane = f (l.move core place verbose).lane ∧
      ((f l).move core place verbose).tripped = (l.move core place verbose).tripped
  report : ∀ (l : Lane g) (core : Core), ((f l).reportText core).2 = f (l.reportText core).2

end Lane

namespace Consumer

/-! ## Sweeps -/

/-- A visit of each lane, the first of them at `place`. -/
def visits (grid : Grid) (verbose : Bool) : Nat → List (Lane g) → List (Lane g × List Event)
  | _, [] => []
  | place, l :: rest =>
    l.visit (grid.coreAt place) place verbose :: visits grid verbose (place + 1) rest

theorem getElem?_visits (grid : Grid) (verbose : Bool) (place : Nat) (lanes : List (Lane g))
    (i : Nat) :
    (visits grid verbose place lanes)[i]? =
      (lanes[i]?).map fun l => l.visit (grid.coreAt (place + i)) (place + i) verbose := by
  induction lanes generalizing place i with
  | nil => simp [visits]
  | cons l rest ih =>
    cases i with
    | zero => simp [visits]
    | succ i =>
      have hplace : place + (i + 1) = place + 1 + i := by omega
      simp only [visits, List.getElem?_cons_succ, ih, hplace]

/-- Of the events of all visits, those at a place are the events of the visit there. -/
theorem filter_visits (grid : Grid) (verbose : Bool) (place : Nat) (lanes : List (Lane g))
    (q : Nat) :
    ((visits grid verbose place lanes).map Prod.snd).flatten.filter (·.isOf grid q) =
      if place ≤ q then
        ((lanes[q - place]?).map fun l => (l.visit (grid.coreAt q) q verbose).2).getD []
      else [] := by
  induction lanes generalizing place with
  | nil => simp [visits]
  | cons l rest ih =>
    simp only [visits, List.map_cons, List.flatten_cons, List.filter_append, ih,
      Lane.filter_visit]
    rcases Nat.lt_trichotomy place q with hlater | rfl | hearlier
    · have hindex : q - place = q - (place + 1) + 1 := by omega
      rw [if_neg (Nat.ne_of_lt hlater), if_pos (Nat.succ_le_of_lt hlater),
        if_pos (Nat.le_of_lt hlater), hindex, List.getElem?_cons_succ, List.nil_append]
    · rw [if_pos rfl, if_neg (Nat.not_succ_le_self place), if_pos (Nat.le_refl place)]
      simp
    · rw [if_neg (Nat.ne_of_gt hearlier), if_neg (by omega), if_neg (by omega), List.nil_append]

theorem sweepFrom_shutdown (grid : Grid) (verbose : Bool) (place : Nat) (lanes : List (Lane g)) :
    sweepFrom grid verbose place lanes true = ⟨.ok 0, lanes, true, []⟩ := by
  cases lanes <;> rfl

/-- If all lanes are calm, a sweep visits them all. -/
theorem sweepFrom_of_calm {grid : Grid} {verbose : Bool} {place : Nat} {lanes : List (Lane g)}
    (h : ∀ (i : Nat) (l : Lane g), lanes[i]? = some l →
      l.IsCalm (grid.coreAt (place + i)) (place + i) verbose) :
    ∃ n, sweepFrom grid verbose place lanes false =
      ⟨.ok n, (visits grid verbose place lanes).map Prod.fst, false,
        ((visits grid verbose place lanes).map Prod.snd).flatten⟩ := by
  induction lanes generalizing place with
  | nil => exact ⟨0, rfl⟩
  | cons l rest ih =>
    obtain ⟨⟨moved, hmoved⟩, hgoesOn⟩ := h 0 l rfl
    have hrest : ∀ (i : Nat) (l' : Lane g), rest[i]? = some l' →
        l'.IsCalm (grid.coreAt (place + 1 + i)) (place + 1 + i) verbose := by
      intro i l' hl'
      have hplace : place + 1 + i = place + (i + 1) := by omega
      rw [hplace]
      exact h (i + 1) l' hl'
    obtain ⟨n, hn⟩ := ih hrest
    rw [Nat.add_zero] at hmoved hgoesOn
    refine ⟨moved.toNat + n, ?_⟩
    simp only [sweepFrom, Bool.false_eq_true, if_false, hmoved, hgoesOn, hn, visits, Pass.after,
      Lane.visit, Except.map, List.map_cons, List.flatten_cons]

/-- If a sweep neither fails nor requests shutdown, all lanes were calm. -/
theorem calm_of_sweepFrom {grid : Grid} {verbose : Bool} {place n : Nat} {lanes : List (Lane g)}
    (hresult : (sweepFrom grid verbose place lanes false).result = .ok n)
    (hgoesOn : (sweepFrom grid verbose place lanes false).shutdown = false) {i : Nat} {l : Lane g}
    (hl : lanes[i]? = some l) : l.IsCalm (grid.coreAt (place + i)) (place + i) verbose := by
  induction lanes generalizing place n i with
  | nil => cases hl
  | cons first rest ih =>
    simp only [sweepFrom, Bool.false_eq_true, if_false] at hresult hgoesOn
    cases hmove : (first.move (grid.coreAt place) place verbose).result with
    | error e =>
      rw [hmove] at hresult
      cases hresult
    | ok moved =>
      cases htripped : (first.move (grid.coreAt place) place verbose).tripped with
      | true =>
        -- shutdown is not taken back in the rest of the sweep
        simp [hmove, htripped, sweepFrom_shutdown, Pass.after] at hgoesOn
      | false =>
        simp only [hmove, htripped, Pass.after] at hresult hgoesOn
        cases i with
        | zero =>
          cases hl
          exact ⟨⟨moved, hmove⟩, htripped⟩
        | succ i =>
          cases hrest : (sweepFrom grid verbose (place + 1) rest false).result with
          | error e =>
            rw [hrest] at hresult
            cases hresult
          | ok m =>
            have hplace : place + (i + 1) = place + 1 + i := by omega
            rw [hplace]
            exact ih hrest hgoesOn hl

/-! ## Changed lanes -/

section Unnoticed

variable {f : Lane g → Lane g}

theorem sweepFrom_map (h : Lane.Unnoticed f) (grid : Grid) (verbose : Bool) (place : Nat)
    (lanes : List (Lane g)) (shutdown : Bool) :
    let p := sweepFrom grid verbose place lanes shutdown
    let p' := sweepFrom grid verbose place (lanes.map f) shutdown
    p'.result = p.result ∧ p'.lanes = p.lanes.map f ∧ p'.shutdown = p.shutdown := by
  induction lanes generalizing place shutdown with
  | nil => exact ⟨rfl, rfl, rfl⟩
  | cons l rest ih =>
    cases shutdown with
    | true => exact ⟨rfl, rfl, rfl⟩
    | false =>
      obtain ⟨hresult, hlane, htripped⟩ := h.move l (grid.coreAt place) place verbose
      simp only [List.map_cons, sweepFrom, Bool.false_eq_true, if_false, hresult, hlane, htripped]
      cases (l.move (grid.coreAt place) place verbose).result with
      | error e => exact ⟨rfl, rfl, rfl⟩
      | ok moved =>
        obtain ⟨hrest, hlanes, hshutdown⟩ :=
          ih (place + 1) (l.move (grid.coreAt place) place verbose).tripped
        simp only [Pass.after, List.map_cons, hrest, hlanes, hshutdown, h.report, and_self]

/-- A change that is not noticed in a move is not noticed in any number of sweeps. -/
theorem drain_map (h : Lane.Unnoticed f) (grid : Grid) (verbose : Bool) (lanes : List (Lane g))
    (shutdown : Bool) :
    let p := drain grid verbose lanes shutdown
    let p' := drain grid verbose (lanes.map f) shutdown
    p'.result = p.result ∧ p'.lanes = p.lanes.map f ∧ p'.shutdown = p.shutdown := by
  induction hm : backlog lanes using Nat.strongRecOn generalizing lanes shutdown with
  | ind m ih =>
    obtain ⟨hresult, hlanes, hshutdown⟩ :
        (sweep grid verbose (lanes.map f) shutdown).result =
          (sweep grid verbose lanes shutdown).result ∧
        (sweep grid verbose (lanes.map f) shutdown).lanes =
          (sweep grid verbose lanes shutdown).lanes.map f ∧
        (sweep grid verbose (lanes.map f) shutdown).shutdown =
          (sweep grid verbose lanes shutdown).shutdown :=
      sweepFrom_map h grid verbose 0 lanes shutdown
    intro p p'
    rw [show p = _ from drain_eq grid verbose lanes shutdown,
      show p' = _ from drain_eq grid verbose (lanes.map f) shutdown]
    simp only [hresult, hlanes, hshutdown]
    cases hmoved : (sweep grid verbose lanes shutdown).result with
    | error e => exact ⟨rfl, rfl, rfl⟩
    | ok n =>
      cases n with
      | zero => exact ⟨rfl, rfl, rfl⟩
      | succ n =>
        have hstep := backlog_sweepFrom grid verbose 0 lanes shutdown hmoved
        have hfewer : backlog (sweep grid verbose lanes shutdown).lanes < m := by
          change backlog (sweepFrom grid verbose 0 lanes shutdown).lanes < m
          omega
        obtain ⟨hrest, hlater, hend⟩ :=
          ih _ hfewer _ (sweep grid verbose lanes shutdown).shutdown rfl
        simp only [Pass.behind, hrest, hlater, hend, and_self]

end Unnoticed

/-! ## Nothing to move -/

/-- A pass that left the rings and the sinks of its lanes as they were and wrote nothing. -/
structure Pass.IsIdle {α : Type} (p : Pass g α) (lanes : List (Lane g)) : Prop where
  rings : p.lanes.map Lane.ring = lanes.map Lane.ring
  sinks : p.lanes.map Lane.sink = lanes.map Lane.sink
  writes : ∀ e ∈ p.events, e.isWrite = false

theorem sweepFrom_of_empty (grid : Grid) (verbose : Bool) (place : Nat) {lanes : List (Lane g)}
    (h : ∀ l ∈ lanes, l.IsEmpty) (shutdown : Bool) :
    (sweepFrom grid verbose place lanes shutdown).result = .ok 0 ∧
      (sweepFrom grid verbose place lanes shutdown).shutdown = shutdown ∧
      (sweepFrom grid verbose place lanes shutdown).IsIdle lanes := by
  induction lanes generalizing place shutdown with
  | nil => exact ⟨rfl, rfl, rfl, rfl, nofun⟩
  | cons l rest ih =>
    obtain ⟨hfirst, hrest⟩ := List.forall_mem_cons.mp h
    cases shutdown with
    | true =>
      rw [sweepFrom_shutdown]
      exact ⟨rfl, rfl, rfl, rfl, nofun⟩
    | false =>
      obtain ⟨hresult, hshutdown, hrings, hsinks, hwrites⟩ := ih (place + 1) hrest false
      simp only [sweepFrom, Bool.false_eq_true, if_false, Lane.move_of_empty hfirst, Pass.after,
        hresult, List.nil_append]
      refine ⟨rfl, hshutdown, by simp [hrings], by simp [hsinks], fun e he => ?_⟩
      rcases List.mem_append.mp he with hreport | hlater
      · exact Lane.isWrite_reportText hreport
      · exact hwrites e hlater

/-- Where every ring is empty there is nothing to move. -/
theorem sweepOn_of_empty (grid : Grid) (verbose : Bool) {lanes : List (Lane g)}
    (h : ∀ l ∈ lanes, l.IsEmpty) (shutdown : Bool) :
    (sweepOn grid verbose lanes shutdown).result = .ok (if shutdown then .shutdown else .idle) ∧
      (sweepOn grid verbose lanes shutdown).IsIdle lanes := by
  obtain ⟨hresult, hshutdown, hidle⟩ := sweepFrom_of_empty grid verbose 0 h shutdown
  have hsweep : (sweep grid verbose lanes shutdown).result = .ok 0 := hresult
  have hkept : (sweep grid verbose lanes shutdown).shutdown = shutdown := hshutdown
  rw [sweepOn, drain_eq]
  simp only [hsweep, hkept]
  exact ⟨rfl, hidle.rings, hidle.sinks, hidle.writes⟩

/-- After a request to shut down a consumer does nothing to its lanes. -/
theorem sweepOn_shutdown (grid : Grid) (verbose : Bool) (lanes : List (Lane g)) :
    sweepOn grid verbose lanes true = ⟨.ok .shutdown, lanes, true, []⟩ := by
  rw [sweepOn, drain_eq]
  simp only [sweep, sweepFrom_shutdown]
  rfl

end Consumer

end TraceRing
