import TraceRing.Proofs.Consumer.Visits

/-!
# The end of a sweep

A sweep comes to the lanes in the order of their places. It ends before the first lane at which
shutdown is requested, at the first lane whose write fails, or behind the last lane. The lanes
before its end are `Lane.Visited`: each moved its oldest packet, if it had one, also when shutdown
was requested during that very write. A lane whose write failed keeps its packet
(`Lane.Failed`), and the lanes behind the end stay as they are. `Consumer.Swept` puts this
together for a sweep that ended at a given place.
-/

namespace TraceRing

variable {g : Geometry}

/-- The places count the cores row by row. -/
theorem Grid.coreAt_lt (grid : Grid) {i j : Nat} (h : i < j) : grid.coreAt i < grid.coreAt j := by
  have hi := Nat.div_add_mod i grid.cols
  have hj := Nat.div_add_mod j grid.cols
  have hle : i / grid.cols ≤ j / grid.cols := Nat.div_le_div_right (Nat.le_of_lt h)
  rcases Nat.lt_or_eq_of_le hle with hrow | hrow
  · exact .inl hrow
  · refine .inr ⟨hrow, ?_⟩
    rw [hrow] at hi
    simp only [coreAt]
    omega

namespace Lane

/-! ## One lane -/

/-- What the sink is offered: the oldest packet, if there is one. -/
def offer (l : Lane g) : Bytes :=
  if Ring.hasData l.ring.producerIndex l.ring.consumerIndex then
    (l.ring.getSlot l.ring.consumerIndex).toList
  else []

/-- What the sink makes of the offer. -/
def delivery (l : Lane g) : Delivery :=
  writeAll l.sink.script l.offer

/-- Whether shutdown is requested while the sink takes the offer. -/
def trips (l : Lane g) : Bool :=
  l.delivery.tripped

/-- The oldest packet was moved: the sink took it whole, its slot was given back, and it was
counted. -/
structure Moved (l l' : Lane g) : Prop where
  ring : l'.ring = l.ring.publishConsumer (l.ring.consumerIndex + 1)
  sink : l'.sink = l.sink.took l.offer l.delivery.script
  consumed : l'.consumed = l.consumed + 1

/-- A visit came to its end. -/
structure Visited (l l' : Lane g) : Prop where
  moved : Ring.hasData l.ring.producerIndex l.ring.consumerIndex = true → l.Moved l'
  kept : l.IsEmpty → l'.ring = l.ring ∧ l'.sink = l.sink ∧ l'.consumed = l.consumed
  reported : l'.reported = if l.ring.text = [] then l.reported else l.ring.text

/-- The write of the oldest packet failed: the sink took a proper part of it, and nothing else
happened. -/
structure Failed (l l' : Lane g) : Prop where
  ring : l'.ring = l.ring
  sink : l'.sink = l.sink.took l.delivery.taken l.delivery.script
  part : l.delivery.taken <+: l.offer ∧ l.delivery.taken.length < l.offer.length
  consumed : l'.consumed = l.consumed
  reported : l'.reported = l.reported

/-- A delivery is whole or fails with a proper part of it taken. -/
theorem taken_delivery (l : Lane g) :
    (l.delivery.result = .ok () ∧ l.delivery.taken = l.offer) ∨
    ((∃ e, l.delivery.result = .error e) ∧
      l.delivery.taken <+: l.offer ∧ l.delivery.taken.length < l.offer.length) :=
  writeAll_taken l.sink.script l.offer

theorem delivery_of_empty {l : Lane g} (h : l.IsEmpty) :
    l.delivery = ⟨.ok (), l.sink.script, [], [], false⟩ := by
  rw [IsEmpty] at h
  simp [delivery, offer, h, writeAll]

theorem reported_reportText (l : Lane g) (core : Core) :
    (l.reportText core).2.reported = if l.ring.text = [] then l.reported else l.ring.text := by
  simp only [reportText]
  split
  · next hold =>
    split
    · rfl
    · next htext => exact hold.resolve_left htext
  · next hnew => rw [if_neg fun htext => hnew (.inl htext)]

/-- Whether shutdown is requested during a move depends on the sink alone, however the move
ends. -/
theorem tripped_move (l : Lane g) (core : Core) (place : Nat) (verbose : Bool) :
    (l.move core place verbose).tripped = l.trips := by
  cases hdata : Ring.hasData l.ring.producerIndex l.ring.consumerIndex with
  | false => rw [move_of_empty hdata, trips, delivery_of_empty hdata]
  | true =>
    simp only [move, trips, delivery, offer, hdata, if_true]
    split <;> rfl

theorem move_of_ok {l : Lane g}
    (hdata : Ring.hasData l.ring.producerIndex l.ring.consumerIndex = true)
    (h : l.delivery.result = .ok ()) (core : Core) (place : Nat) (verbose : Bool) :
    (l.move core place verbose).result = .ok true ∧
      (l.move core place verbose).lane =
        { l with
          ring := l.ring.publishConsumer (l.ring.consumerIndex + 1)
          sink := l.sink.took l.offer l.delivery.script
          consumed := l.consumed + 1 } := by
  have htaken : l.delivery.taken = l.offer := by
    rcases l.taken_delivery with ⟨-, htaken⟩ | ⟨⟨e, herror⟩, -⟩
    · exact htaken
    · rw [h] at herror
      cases herror
  rw [← htaken]
  rw [delivery, offer, hdata, if_pos rfl] at h
  simp only [move, delivery, offer, hdata, if_true, h, and_self]

theorem move_of_error {l : Lane g} {e : IoError}
    (hdata : Ring.hasData l.ring.producerIndex l.ring.consumerIndex = true)
    (h : l.delivery.result = .error e) (core : Core) (place : Nat) (verbose : Bool) :
    (l.move core place verbose).result = .error (.packetNotWritten core e) ∧
      (l.move core place verbose).lane =
        { l with sink := l.sink.took l.delivery.taken l.delivery.script } := by
  rw [delivery, offer, hdata, if_pos rfl] at h
  simp only [move, delivery, offer, hdata, if_true, h, and_self]

/-- If the sink takes the offer, the visit comes to its end. -/
theorem visited_of_ok {l : Lane g} (h : l.delivery.result = .ok ()) (core : Core) (place : Nat)
    (verbose : Bool) :
    (l.move core place verbose).result =
        .ok (Ring.hasData l.ring.producerIndex l.ring.consumerIndex) ∧
      l.Visited (l.visit core place verbose).1 := by
  cases hdata : Ring.hasData l.ring.producerIndex l.ring.consumerIndex with
  | false =>
    rw [visit, move_of_empty hdata]
    refine ⟨rfl, fun hpacket => ?_, fun _ => ⟨?_, ?_, ?_⟩, l.reported_reportText core⟩
    · rw [hdata] at hpacket
      cases hpacket
    · exact l.ring_reportText core
    · exact l.sink_reportText core
    · exact l.consumed_reportText core
  | true =>
    obtain ⟨hresult, hlane⟩ := move_of_ok hdata h core place verbose
    rw [visit, hlane]
    refine ⟨hresult, fun _ => ⟨?_, ?_, ?_⟩, fun hempty => ?_, ?_⟩
    · exact ring_reportText _ core
    · exact sink_reportText _ core
    · exact consumed_reportText _ core
    · rw [IsEmpty, hdata] at hempty
      cases hempty
    · exact reported_reportText _ core

/-- If the sink fails, the move does. -/
theorem failed_of_error {l : Lane g} {e : IoError} (h : l.delivery.result = .error e)
    (core : Core) (place : Nat) (verbose : Bool) :
    (l.move core place verbose).result = .error (.packetNotWritten core e) ∧
      l.Failed (l.move core place verbose).lane := by
  cases hdata : Ring.hasData l.ring.producerIndex l.ring.consumerIndex with
  | false =>
    rw [delivery_of_empty hdata] at h
    cases h
  | true =>
    obtain ⟨hresult, hlane⟩ := move_of_error hdata h core place verbose
    have hpart : l.delivery.taken <+: l.offer ∧ l.delivery.taken.length < l.offer.length := by
      rcases l.taken_delivery with ⟨hok, -⟩ | ⟨-, hpart⟩
      · rw [h] at hok
        cases hok
      · exact hpart
    rw [hlane]
    exact ⟨hresult, rfl, rfl, hpart, rfl, rfl⟩

end Lane

namespace Consumer

/-! ## All lanes -/

/-- Whether shutdown is requested when a sweep comes to a lane: before the sweep, or while the sink
of an earlier lane took its offer. -/
def requested (lanes : List (Lane g)) (shutdown : Bool) (i : Nat) : Bool :=
  shutdown || (lanes.take i).any Lane.trips

/-- The number of lanes that have a packet. -/
def ready (lanes : List (Lane g)) : Nat :=
  lanes.countP fun l => Ring.hasData l.ring.producerIndex l.ring.consumerIndex

/-- How a sweep ends at the lane `n`: nothing is done to that lane, or its write fails. -/
inductive Ends (grid : Grid) (verbose : Bool) (place : Nat) (lanes : List (Lane g))
    (shutdown : Bool) (n : Nat) (p : Pass g Nat) : Prop where
  | clear (stop : n = lanes.length ∨ requested lanes shutdown n = true)
      (kept : p.lanes[n]? = lanes[n]?)
      (result : p.result = .ok (ready (lanes.take n)))
      (events : p.events = ((visits grid verbose place (lanes.take n)).map Prod.snd).flatten)
  | broken {l l' : Lane g} {e : IoError} (goesOn : requested lanes shutdown n = false)
      (lane : lanes[n]? = some l) (fails : l.delivery.result = .error e)
      (lane' : p.lanes[n]? = some l') (failed : l.Failed l')
      (result : p.result = .error (.packetNotWritten (grid.coreAt (place + n)) e))
      (events : p.events = ((visits grid verbose place (lanes.take n)).map Prod.snd).flatten ++
        (l.move (grid.coreAt (place + n)) (place + n) verbose).events)

/-- What a sweep of lanes, the first of them at `place`, leaves and answers if it ends at the lane
`n`. -/
structure Swept (grid : Grid) (verbose : Bool) (place : Nat) (lanes : List (Lane g))
    (shutdown : Bool) (n : Nat) (p : Pass g Nat) : Prop where
  length : p.lanes.length = lanes.length
  le : n ≤ lanes.length
  visited : ∀ (i : Nat) (l : Lane g), i < n → lanes[i]? = some l →
    requested lanes shutdown i = false ∧ l.delivery.result = .ok () ∧
      ∃ l', p.lanes[i]? = some l' ∧ l.Visited l'
  ends : Ends grid verbose place lanes shutdown n p
  kept : ∀ i, n < i → p.lanes[i]? = lanes[i]?
  shutdown : p.shutdown = requested lanes shutdown (n + 1)

@[simp] theorem requested_zero (lanes : List (Lane g)) (shutdown : Bool) :
    requested lanes shutdown 0 = shutdown := by
  simp [requested]

@[simp] theorem requested_succ (l : Lane g) (rest : List (Lane g)) (i : Nat) :
    requested (l :: rest) false (i + 1) = requested rest l.trips i := by
  simp [requested]

@[simp] theorem requested_of_shutdown (lanes : List (Lane g)) (i : Nat) :
    requested lanes true i = true := by
  simp [requested]

/-- A request is not taken back. -/
theorem requested_mono {lanes : List (Lane g)} {shutdown : Bool} {i j : Nat} (hle : i ≤ j)
    (h : requested lanes shutdown i = true) : requested lanes shutdown j = true := by
  simp only [requested, Bool.or_eq_true, List.any_eq_true] at h ⊢
  refine h.imp_right fun ⟨l, hl, htrips⟩ => ⟨l, ?_, htrips⟩
  exact (List.take_sublist_take_left hle).subset hl

theorem ready_cons (l : Lane g) (rest : List (Lane g)) :
    ready (l :: rest) =
      (Ring.hasData l.ring.producerIndex l.ring.consumerIndex).toNat + ready rest := by
  cases h : Ring.hasData l.ring.producerIndex l.ring.consumerIndex <;>
    simp [ready, h, Nat.add_comm]

namespace Swept

variable {grid : Grid} {verbose shutdown : Bool} {place n : Nat} {lanes rest : List (Lane g)}
  {l : Lane g} {p : Pass g Nat}

theorem nil (grid : Grid) (verbose : Bool) (place : Nat) (shutdown : Bool) :
    Swept grid verbose place ([] : List (Lane g)) shutdown 0 ⟨.ok 0, [], shutdown, []⟩ where
  length := rfl
  le := Nat.zero_le _
  visited _ _ hi := nomatch hi
  ends := .clear (.inl rfl) rfl rfl rfl
  kept _ _ := rfl
  shutdown := by simp [requested]

/-- A sweep that comes to a lane and ends before it. -/
theorem stopped (grid : Grid) (verbose : Bool) (place : Nat) (lanes : List (Lane g)) :
    Swept grid verbose place lanes true 0 ⟨.ok 0, lanes, true, []⟩ where
  length := rfl
  le := Nat.zero_le _
  visited _ _ hi := nomatch hi
  ends := .clear (.inr (requested_of_shutdown lanes 0)) rfl rfl rfl
  kept _ _ := rfl
  shutdown := (requested_of_shutdown lanes 1).symm

/-- A sweep whose first write fails. -/
theorem failed {e : IoError} (grid : Grid) (verbose : Bool) (place : Nat) (rest : List (Lane g))
    (hfails : l.delivery.result = .error e) :
    let m := l.move (grid.coreAt place) place verbose
    Swept grid verbose place (l :: rest) false 0
      ⟨.error (.packetNotWritten (grid.coreAt place) e), m.lane :: rest, m.tripped, m.events⟩ where
  length := rfl
  le := Nat.zero_le _
  visited _ _ hi := nomatch hi
  ends := .broken (requested_zero _ _) rfl hfails rfl
    (Lane.failed_of_error hfails (grid.coreAt place) place verbose).2 rfl rfl
  kept i hi := by
    cases i with
    | zero => exact absurd hi (Nat.lt_irrefl 0)
    | succ i => rfl
  shutdown := by
    rw [requested_succ, requested_zero]
    exact l.tripped_move (grid.coreAt place) place verbose

/-- One more lane that is visited. -/
theorem cons (h : Swept grid verbose (place + 1) rest l.trips n p)
    (hok : l.delivery.result = .ok ()) :
    Swept grid verbose place (l :: rest) false (n + 1)
      (p.after (Ring.hasData l.ring.producerIndex l.ring.consumerIndex).toNat
        (l.visit (grid.coreAt place) place verbose).1
        (l.visit (grid.coreAt place) place verbose).2) where
  length := congrArg (· + 1) h.length
  le := Nat.succ_le_succ h.le
  visited i first hi hfirst := by
    cases i with
    | zero =>
      cases hfirst
      exact ⟨requested_zero _ _, hok, _, rfl, (Lane.visited_of_ok hok _ _ verbose).2⟩
    | succ i =>
      rw [requested_succ]
      exact h.visited i first (Nat.lt_of_succ_lt_succ hi) hfirst
  ends := by
    have hplace : place + (n + 1) = place + 1 + n := by omega
    cases h.ends with
    | clear stop kept result events =>
      refine .clear ?_ kept ?_ ?_
      · rw [requested_succ]
        exact stop.imp_left (congrArg (· + 1))
      · rw [List.take_succ_cons, ready_cons]
        simp only [Pass.after, result]
        rfl
      · simp only [Pass.after, events, List.take_succ_cons, visits, List.map_cons,
          List.flatten_cons]
    | broken goesOn lane fails lane' failed result events =>
      refine .broken (by rwa [requested_succ]) lane fails lane' failed ?_ ?_
      · simp only [Pass.after, result, hplace]
        rfl
      · simp only [Pass.after, events, List.take_succ_cons, visits, List.map_cons,
          List.flatten_cons, List.append_assoc, hplace]
  kept i hi := by
    cases i with
    | zero => exact absurd hi (Nat.not_lt_zero _)
    | succ i => exact h.kept i (Nat.lt_of_succ_lt_succ hi)
  shutdown := by
    rw [requested_succ]
    exact h.shutdown

/-- A lane that a sweep comes to is visited if neither its write nor an earlier one fails, whether
or not shutdown is requested during that write. -/
theorem lt_of_ok (h : Swept grid verbose place lanes shutdown n p) {i : Nat} {l : Lane g}
    (hl : lanes[i]? = some l) (hgoesOn : requested lanes shutdown i = false)
    (hok : ∀ (j : Nat) (k : Lane g), j ≤ i → lanes[j]? = some k → k.delivery.result = .ok ()) :
    i < n := by
  refine Nat.lt_of_not_le fun hle => ?_
  cases h.ends with
  | clear stop =>
    rcases stop with rfl | hrequested
    · rw [List.getElem?_eq_none hle] at hl
      cases hl
    · rw [requested_mono hle hrequested] at hgoesOn
      cases hgoesOn
  | broken _ lane fails =>
    rw [hok n _ hle lane] at fails
    cases fails

end Swept

theorem exists_swept (grid : Grid) (verbose : Bool) (place : Nat) (lanes : List (Lane g))
    (shutdown : Bool) :
    ∃ n, Swept grid verbose place lanes shutdown n
      (sweepFrom grid verbose place lanes shutdown) := by
  induction lanes generalizing place shutdown with
  | nil => exact ⟨0, .nil grid verbose place shutdown⟩
  | cons l rest ih =>
    cases shutdown with
    | true =>
      rw [sweepFrom_shutdown]
      exact ⟨0, .stopped grid verbose place (l :: rest)⟩
    | false =>
      cases hdelivery : l.delivery.result with
      | error e =>
        obtain ⟨hresult, -⟩ := Lane.failed_of_error hdelivery (grid.coreAt place) place verbose
        refine ⟨0, ?_⟩
        simp only [sweepFrom, Bool.false_eq_true, if_false, hresult]
        exact .failed grid verbose place rest hdelivery
      | ok _ =>
        obtain ⟨n, hn⟩ := ih (place + 1) l.trips
        obtain ⟨hresult, -⟩ := Lane.visited_of_ok hdelivery (grid.coreAt place) place verbose
        refine ⟨n + 1, ?_⟩
        simp only [sweepFrom, Bool.false_eq_true, if_false, hresult, Lane.tripped_move]
        exact hn.cons hdelivery

/-- A sweep visits the lanes row by row up to its end, and it ends no sooner than it has to: a lane
is visited unless shutdown was requested before the sweep came to it, or the write of that lane or
of an earlier one fails. -/
theorem sweep_ends (grid : Grid) (verbose : Bool) (lanes : List (Lane g)) (shutdown : Bool) :
    (∀ i j, i < j → grid.coreAt i < grid.coreAt j) ∧
    ∃ n, Swept grid verbose 0 lanes shutdown n (sweep grid verbose lanes shutdown) ∧
      ∀ (i : Nat) (l : Lane g), lanes[i]? = some l → requested lanes shutdown i = false →
        (∀ (j : Nat) (k : Lane g), j ≤ i → lanes[j]? = some k → k.delivery.result = .ok ()) →
        i < n := by
  refine ⟨fun i j hlt => grid.coreAt_lt hlt, ?_⟩
  obtain ⟨n, hswept⟩ := exists_swept grid verbose 0 lanes shutdown
  exact ⟨n, hswept, fun i l hl hgoesOn hok => hswept.lt_of_ok hl hgoesOn hok⟩

/-- Shutdown is requested during the write of the first packet, which is moved nevertheless; the
second one stays. -/
example :
    let waiting : Ring .pair := { Ring.empty .pair with producerIndex := 1 }
    let p := sweep ⟨1, 2, by decide, by decide⟩ false
      [Lane.new waiting ⟨[⟨.takeAll, true⟩], none, []⟩, Lane.new waiting .accepting] false
    p.result.toOption = some 1 ∧ p.lanes.map Lane.consumed = [1, 0] := by
  decide +kernel

end Consumer

end TraceRing
