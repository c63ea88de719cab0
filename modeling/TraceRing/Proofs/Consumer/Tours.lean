import TraceRing.Proofs.Consumer.Courses

/-!
# Tours over the lanes

A consumer that sweeps goes from lane to lane. Its `Tour` tells from which places it moved a packet
and at which place a write failed, if one did, which ended the tour. The answers of sweeps are read
off the tour, and each lane goes along a `Lane.Course` with as many moves as the tour has entries
for its place.
-/

namespace TraceRing

variable {g : Geometry}

/-- What a consumer did from lane to lane. -/
structure Tour where
  /-- The places a packet was moved from, in order. -/
  moved : List Nat
  /-- The place of the write that failed and ended the tour. -/
  failed : Option Nat

namespace Tour

/-- A tour on which nothing is moved. -/
def idle : Tour :=
  ⟨[], none⟩

/-- A visit of one place. -/
def ofResult (place : Nat) : Except TransportFailure Bool → Tour
  | .error _ => ⟨[], some place⟩
  | .ok moved => ⟨if moved then [place] else [], none⟩

/-- A tour after moves from some places. -/
def after (places : List Nat) (t : Tour) : Tour :=
  ⟨places ++ t.moved, t.failed⟩

/-- Whether the write that failed was at a place. -/
def failedAt (t : Tour) (place : Nat) : Bool :=
  t.failed == some place

theorem failedAt_eq_false_iff {t : Tour} {place : Nat} :
    t.failedAt place = false ↔ place ∉ t.failed.toList := by
  simp [failedAt]

@[simp] theorem failedAt_idle (place : Nat) : idle.failedAt place = false :=
  rfl

@[simp] theorem count_idle (place : Nat) : idle.moved.count place = 0 :=
  rfl

@[simp] theorem failedAt_after (places : List Nat) (t : Tour) (place : Nat) :
    (t.after places).failedAt place = t.failedAt place :=
  rfl

@[simp] theorem count_after (places : List Nat) (t : Tour) (place : Nat) :
    (t.after places).moved.count place = places.count place + t.moved.count place :=
  List.count_append

/-- A visit says nothing of other places. -/
theorem ofResult_of_ne {place q : Nat} (h : place ≠ q) (result : Except TransportFailure Bool) :
    (ofResult place result).moved.count q = 0 ∧ (ofResult place result).failedAt q = false := by
  cases result with
  | error e => simp [ofResult, failedAt, h]
  | ok moved => cases moved <;> simp [ofResult, failedAt, h]

end Tour

/-- A single move is the course of its visit. -/
theorem Lane.course_move (l : Lane g) (core : Core) (place : Nat) (verbose : Bool) :
    let visit := Tour.ofResult place (l.move core place verbose).result
    l.Course (visit.moved.count place) (visit.failedAt place) (l.move core place verbose).lane := by
  cases hresult : (l.move core place verbose).result with
  | error e =>
    simpa [Tour.ofResult, Tour.failedAt] using Lane.Course.fail core place verbose hresult
  | ok moved =>
    have hmove := Lane.Course.move core place verbose hresult (.done _)
    cases moved <;> simpa [Tour.ofResult, Tour.failedAt] using hmove

namespace Consumer

/-! ## Sweeps -/

/-- The tour of `sweepFrom`. -/
def sweepTour (grid : Grid) (verbose : Bool) : Nat → List (Lane g) → Bool → Tour
  | _, [], _ => .idle
  | place, l :: rest, shutdown =>
    if shutdown then .idle
    else
      let m := l.move (grid.coreAt place) place verbose
      match m.result with
      | .error e => .ofResult place (.error e)
      | .ok moved =>
        (sweepTour grid verbose (place + 1) rest m.tripped).after
          (Tour.ofResult place (.ok moved)).moved

/-- A sweep answers the length of its tour, or the failure at its end. -/
theorem result_sweepFrom (grid : Grid) (verbose : Bool) (place : Nat) (lanes : List (Lane g))
    (shutdown : Bool) :
    match (sweepTour grid verbose place lanes shutdown).failed with
    | none =>
      (sweepFrom grid verbose place lanes shutdown).result
        = .ok (sweepTour grid verbose place lanes shutdown).moved.length
    | some q => ∃ e, (sweepFrom grid verbose place lanes shutdown).result
        = .error (.packetNotWritten (grid.coreAt q) e) := by
  induction lanes generalizing place shutdown with
  | nil => rfl
  | cons l rest ih =>
    simp only [sweepTour, sweepFrom]
    cases shutdown with
    | true => rfl
    | false =>
      simp only [Bool.false_eq_true, if_false]
      cases hresult : (l.move (grid.coreAt place) place verbose).result with
      | error failure =>
        simp only [Tour.ofResult]
        -- a move fails in no other way than by the write to its sink
        simp only [Lane.move] at hresult
        split at hresult
        · split at hresult
          · cases hresult
            exact ⟨_, rfl⟩
          · cases hresult
        · cases hresult
      | ok moved =>
        have htail := ih (place + 1) (l.move (grid.coreAt place) place verbose).tripped
        simp only [Tour.after, Pass.after]
        split
        · next hnone =>
          rw [hnone] at htail
          rw [htail]
          cases moved <;> simp [Tour.ofResult, Except.map, Nat.add_comm]
        · next q hsome =>
          rw [hsome] at htail
          obtain ⟨e, he⟩ := htail
          exact ⟨e, by rw [he]; rfl⟩

/-- A sweep that answers a number did not fail anywhere. -/
theorem failedAt_sweepTour {grid : Grid} {verbose : Bool} {place : Nat} {lanes : List (Lane g)}
    {shutdown : Bool} {n : Nat}
    (h : (sweepFrom grid verbose place lanes shutdown).result = .ok n) (q : Nat) :
    (sweepTour grid verbose place lanes shutdown).failedAt q = false := by
  have hresult := result_sweepFrom grid verbose place lanes shutdown
  cases hfailed : (sweepTour grid verbose place lanes shutdown).failed with
  | none => simp [Tour.failedAt, hfailed]
  | some q' =>
    rw [hfailed] at hresult
    obtain ⟨e, he⟩ := hresult
    rw [h] at he
    cases he

/-- The tour of a sweep starts at its first lane. -/
theorem sweepTour_of_lt (grid : Grid) (verbose : Bool) {place q : Nat} (hq : q < place)
    (lanes : List (Lane g)) (shutdown : Bool) :
    (sweepTour grid verbose place lanes shutdown).moved.count q = 0 ∧
    (sweepTour grid verbose place lanes shutdown).failedAt q = false := by
  induction lanes generalizing place shutdown with
  | nil => exact ⟨rfl, rfl⟩
  | cons l rest ih =>
    simp only [sweepTour]
    split
    · exact ⟨rfl, rfl⟩
    · split
      · exact Tour.ofResult_of_ne (by omega) _
      · next moved _ =>
        have hvisit := Tour.ofResult_of_ne (show place ≠ q by omega) (.ok moved)
        have htail := ih (Nat.lt_succ_of_lt hq) (l.move (grid.coreAt place) place verbose).tripped
        simp [hvisit, htail]

theorem length_sweepFrom (grid : Grid) (verbose : Bool) (place : Nat) (lanes : List (Lane g))
    (shutdown : Bool) :
    (sweepFrom grid verbose place lanes shutdown).lanes.length = lanes.length := by
  induction lanes generalizing place shutdown with
  | nil => rfl
  | cons l rest ih =>
    simp only [sweepFrom]
    split
    · rfl
    · split
      · rfl
      · simp [Pass.after, ih]

/-- A sweep takes each lane along a course. -/
theorem course_sweepFrom (grid : Grid) (verbose : Bool) (place : Nat) (lanes : List (Lane g))
    (shutdown : Bool) {i : Nat} {l' : Lane g}
    (h : (sweepFrom grid verbose place lanes shutdown).lanes[i]? = some l') :
    ∃ l, lanes[i]? = some l ∧
      l.Course ((sweepTour grid verbose place lanes shutdown).moved.count (place + i))
        ((sweepTour grid verbose place lanes shutdown).failedAt (place + i)) l' := by
  induction lanes generalizing place shutdown i with
  | nil => cases h
  | cons l rest ih =>
    simp only [sweepFrom] at h
    simp only [sweepTour]
    split at h
    · next hstop =>
      rw [if_pos hstop]
      exact ⟨l', h, .done l'⟩
    · next hgo =>
      rw [if_neg hgo]
      cases hresult : (l.move (grid.coreAt place) place verbose).result with
      | error e =>
        simp only [hresult] at h ⊢
        cases i with
        | zero =>
          cases h
          refine ⟨l, rfl, ?_⟩
          simpa [hresult] using l.course_move (grid.coreAt place) place verbose
        | succ i =>
          obtain ⟨hcount, hfailed⟩ :=
            Tour.ofResult_of_ne (show place ≠ place + (i + 1) by omega) (.error e)
          rw [hcount, hfailed]
          exact ⟨l', h, .done l'⟩
      | ok moved =>
        simp only [hresult] at h
        simp only [Tour.count_after, Tour.failedAt_after]
        cases i with
        | zero =>
          cases h
          refine ⟨l, rfl, ?_⟩
          -- the rest of the sweep does not come back to this lane
          obtain ⟨hcount, hfailed⟩ := sweepTour_of_lt grid verbose (Nat.lt_succ_self place) rest
            (l.move (grid.coreAt place) place verbose).tripped
          have hvisit := l.course_move (grid.coreAt place) place verbose
          rw [hresult] at hvisit
          simp only [Nat.add_zero, hcount, hfailed]
          exact hvisit.trans (.report (grid.coreAt place) (.done _))
        | succ i =>
          obtain ⟨before, hbefore, hcourse⟩ := ih (place + 1) _ h
          obtain ⟨hcount, -⟩ :=
            Tour.ofResult_of_ne (show place ≠ place + (i + 1) by omega) (.ok moved)
          have hplace : place + (i + 1) = place + 1 + i := by omega
          rw [hcount, hplace, Nat.zero_add]
          exact ⟨before, hbefore, hcourse⟩

/-! ## Repeated sweeps -/

/-- The tour of `drain`: that of its sweeps, one after the other. -/
def drainTour (grid : Grid) (verbose : Bool) (lanes : List (Lane g)) (shutdown : Bool) : Tour :=
  let s := sweep grid verbose lanes shutdown
  let tour := sweepTour grid verbose 0 lanes shutdown
  match _h : s.result with
  | .ok (_ + 1) => (drainTour grid verbose s.lanes s.shutdown).after tour.moved
  | _ => tour
termination_by backlog lanes
decreasing_by
  have hstep := backlog_sweepFrom grid verbose 0 lanes shutdown _h
  change backlog (sweepFrom grid verbose 0 lanes shutdown).lanes < backlog lanes
  omega

/-- Sweeping until nothing moves takes each lane along a course. -/
theorem course_drain (grid : Grid) (verbose : Bool) (lanes : List (Lane g)) (shutdown : Bool)
    {place : Nat} {l' : Lane g}
    (h : (drain grid verbose lanes shutdown).lanes[place]? = some l') :
    ∃ l, lanes[place]? = some l ∧
      l.Course ((drainTour grid verbose lanes shutdown).moved.count place)
        ((drainTour grid verbose lanes shutdown).failedAt place) l' := by
  -- `drain` ends because each sweep that moves something leaves less to move
  induction hm : backlog lanes using Nat.strongRecOn generalizing lanes shutdown with
  | ind m ih =>
    have hsweep : ∀ {l'}, (sweep grid verbose lanes shutdown).lanes[place]? = some l' →
        ∃ l, lanes[place]? = some l ∧
          l.Course ((sweepTour grid verbose 0 lanes shutdown).moved.count place)
            ((sweepTour grid verbose 0 lanes shutdown).failedAt place) l' := by
      intro l' hl'
      simpa using course_sweepFrom grid verbose 0 lanes shutdown hl'
    rw [drain_eq] at h
    rw [drainTour]
    split
    · next n hmoved =>
      simp only [hmoved, Pass.behind] at h
      have hstep := backlog_sweepFrom grid verbose 0 lanes shutdown hmoved
      have hfewer : backlog (sweep grid verbose lanes shutdown).lanes < m := by
        change backlog (sweepFrom grid verbose 0 lanes shutdown).lanes < m
        omega
      obtain ⟨middle, hmiddle, hlater⟩ := ih _ hfewer _ _ h rfl
      obtain ⟨l, hl, hfirst⟩ := hsweep hmiddle
      -- the sweep is followed by others, so it did not fail
      have hgo : (sweepTour grid verbose 0 lanes shutdown).failedAt place = false :=
        failedAt_sweepTour hmoved place
      rw [hgo] at hfirst
      refine ⟨l, hl, ?_⟩
      simpa using hfirst.trans hlater
    · next hlast =>
      cases hresult : (sweep grid verbose lanes shutdown).result with
      | error e =>
        simp only [hresult] at h
        exact hsweep h
      | ok n =>
        cases n with
        | zero =>
          simp only [hresult] at h
          exact hsweep h
        | succ n => exact absurd hresult (hlast n)

theorem length_drain (grid : Grid) (verbose : Bool) (lanes : List (Lane g)) (shutdown : Bool) :
    (drain grid verbose lanes shutdown).lanes.length = lanes.length := by
  induction hm : backlog lanes using Nat.strongRecOn generalizing lanes shutdown with
  | ind m ih =>
    have hsweep : (sweep grid verbose lanes shutdown).lanes.length = lanes.length :=
      length_sweepFrom grid verbose 0 lanes shutdown
    rw [drain_eq]
    cases hresult : (sweep grid verbose lanes shutdown).result with
    | error e => simpa only [hresult] using hsweep
    | ok n =>
      cases n with
      | zero => simpa only [hresult] using hsweep
      | succ n =>
        have hstep := backlog_sweepFrom grid verbose 0 lanes shutdown hresult
        have hfewer : backlog (sweep grid verbose lanes shutdown).lanes < m := by
          change backlog (sweepFrom grid verbose 0 lanes shutdown).lanes < m
          omega
        simp only [hresult, Pass.behind]
        rw [ih _ hfewer _ _ rfl, hsweep]

/-- A run of the consumer leaves the lanes as its sweeps do. -/
theorem lanes_run (grid : Grid) (verbose : Bool) (pollNanos : Nat) (lanes : List (Lane g))
    (shutdown : Bool) :
    (run grid verbose pollNanos lanes shutdown).lanes
      = (drain grid verbose lanes shutdown).lanes := by
  simp only [run, sweepOn]
  split <;> rfl

/-! ## New consumers -/

section Attach

variable {grid : Grid} {rings : List (Ring g)} {sinks : List Sink} {lanes : List (Lane g)}

theorem eq_of_attach (h : attach grid rings sinks = .ok lanes) :
    rings.length = grid.count ∧ sinks.length = grid.count ∧
      lanes = List.zipWith Lane.new rings sinks := by
  simp only [attach] at h
  split at h
  · cases h
  · next hrings =>
    split at h
    · cases h
    · next hsinks =>
      simp only [Except.ok.injEq] at h
      exact ⟨Decidable.not_not.mp hrings, Decidable.not_not.mp hsinks, h.symm⟩

/-- A new consumer has a lane for each core. -/
theorem length_of_attach (h : attach grid rings sinks = .ok lanes) :
    lanes.length = grid.count := by
  obtain ⟨hrings, hsinks, rfl⟩ := eq_of_attach h
  simp [hrings, hsinks]

/-- The lanes of a new consumer are new. -/
theorem lane_of_attach (h : attach grid rings sinks = .ok lanes) {place : Nat} {l : Lane g}
    (hl : lanes[place]? = some l) :
    ∃ ring sink, rings[place]? = some ring ∧ sinks[place]? = some sink ∧
      l = Lane.new ring sink := by
  obtain ⟨-, -, rfl⟩ := eq_of_attach h
  obtain ⟨ring, sink, hring, hsink, hnew⟩ := List.getElem?_zipWith_eq_some.mp hl
  exact ⟨ring, sink, hring, hsink, hnew.symm⟩

end Attach

end Consumer

end TraceRing
