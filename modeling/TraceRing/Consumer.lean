import TraceRing.Log.Notice
import TraceRing.Ring.Basic
import TraceRing.Sink

/-!
# Consumers

One consumer drains the rings of all cores into one sink per core. It sweeps over the cores in
the order of their places and moves at most one packet of each; it looks for shutdown before each
core and never in the middle of a packet. A consumer index moves only after its packet was taken
whole, so a failed write leaves the packet in the ring.

A `Lane` is what the consumer has of one core: its ring, its sink, and what it remembers of both.
-/

namespace TraceRing

/-- Something the consumer does that others can see. -/
inductive Event where
  | log (notice : Log.Notice)
  /-- A sink is offered some bytes. -/
  | write (sink : Nat) (offer : Bytes)
  | flush (sink : Nat)
  /-- A sink is let go. -/
  | drop (sink : Nat)
  deriving DecidableEq

/-- The ring and the sink of one core. -/
structure Lane (g : Geometry) where
  ring : Ring g
  sink : Sink
  /-- The number of packets moved. -/
  consumed : Nat
  /-- The last diagnostic text that was reported. -/
  reported : Bytes
  deriving DecidableEq

namespace Lane

variable {g : Geometry}

/-- A lane nothing was moved through yet. -/
def new (ring : Ring g) (sink : Sink) : Lane g :=
  ⟨ring, sink, 0, []⟩

/-- The lane after what its sink took was collected. -/
def emptied (l : Lane g) : Lane g :=
  { l with sink := l.sink.emptied }

/-! ## One packet -/

/-- How moving a packet ended. -/
structure Move (g : Geometry) where
  /-- Whether there was a packet. -/
  result : Except TransportFailure Bool
  lane : Lane g
  tripped : Bool
  events : List Event

/-- Moves the oldest packet from the ring to the sink, if there is one. -/
def move (l : Lane g) (core : Core) (place : Nat) (verbose : Bool) : Move g :=
  if Ring.hasData l.ring.producerIndex l.ring.consumerIndex then
    let c := l.ring.consumerIndex
    let d := writeAll l.sink.script (l.ring.getSlot c).toList
    let notices :=
      if verbose then
        [Event.log (.packetFound core l.ring.producerIndex c (Ring.slot g c))]
      else []
    let events := notices ++ d.offers.map (Event.write place)
    let l := { l with sink := l.sink.took d.taken d.script }
    match d.result with
    | .error e => ⟨.error (.packetNotWritten core e), l, d.tripped, events⟩
    | .ok () =>
      ⟨.ok true, { l with ring := l.ring.publishConsumer (c + 1), consumed := l.consumed + 1 },
        d.tripped, events⟩
  else ⟨.ok false, l, false, []⟩

/-! ## Diagnostic text -/

/-- Reports the diagnostic text of the core, if there is one and it is another than the last one
reported. -/
def reportText (l : Lane g) (core : Core) : List Event × Lane g :=
  let text := l.ring.text
  if text = [] ∨ l.reported = text then ([], l)
  else ([.log (.coreText core text)], { l with reported := text })

/-! ## The end -/

/-- Flushes the sink and lets it go. -/
def finish (l : Lane g) (core : Core) (place : Nat) : Except TransportFailure Nat × List Event :=
  match l.sink.flushError with
  | none => (.ok l.consumed, [.flush place, .drop place])
  | some e =>
    (.error (.packetNotWritten core e), [.flush place, .log (.flushFailed core e), .drop place])

/-- Moving a packet takes one from the backlog, and nothing else does. -/
theorem backlog_move (l : Lane g) (core : Core) (place : Nat) (verbose : Bool) {moved : Bool}
    (h : (l.move core place verbose).result = .ok moved) :
    (l.move core place verbose).lane.ring.backlog + moved.toNat = l.ring.backlog := by
  unfold move at h ⊢
  split at h
  · next data =>
    simp only [data, if_true] at h ⊢
    split at h
    · cases h
    · next ok =>
      cases h
      exact Ring.backlog_publishConsumer l.ring data
  · next none =>
    cases h
    simp [none]

@[simp] theorem ring_reportText (l : Lane g) (core : Core) :
    (l.reportText core).2.ring = l.ring := by
  simp only [reportText]
  split <;> rfl

end Lane

namespace Consumer

variable {g : Geometry}

/-! ## Sweeps -/

/-- How a pass over lanes ended. -/
structure Pass (g : Geometry) (α : Type) where
  result : Except TransportFailure α
  lanes : List (Lane g)
  shutdown : Bool
  events : List Event

/-- A pass with one more lane in front, which moved some packets. -/
def Pass.after (moved : Nat) (lane : Lane g) (events : List Event) (p : Pass g Nat) : Pass g Nat :=
  ⟨p.result.map (moved + ·), lane :: p.lanes, p.shutdown, events ++ p.events⟩

/-- Visits lanes in order, the first of them at `place`, until shutdown is requested or a write
fails. Answers the number of packets moved. -/
def sweepFrom (grid : Grid) (verbose : Bool) : Nat → List (Lane g) → Bool → Pass g Nat
  | _, [], shutdown => ⟨.ok 0, [], shutdown, []⟩
  | place, l :: rest, shutdown =>
    if shutdown then ⟨.ok 0, l :: rest, true, []⟩
    else
      let core := grid.coreAt place
      let m := l.move core place verbose
      match m.result with
      | .error e => ⟨.error e, m.lane :: rest, m.tripped, m.events⟩
      | .ok moved =>
        let reported := m.lane.reportText core
        (sweepFrom grid verbose (place + 1) rest m.tripped).after moved.toNat reported.2
          (m.events ++ reported.1)

/-- Visits every core once. -/
def sweep (grid : Grid) (verbose : Bool) (lanes : List (Lane g)) (shutdown : Bool) : Pass g Nat :=
  sweepFrom grid verbose 0 lanes shutdown

/-- The packets that wait in some lanes. -/
def backlog (lanes : List (Lane g)) : Nat :=
  (lanes.map fun l => l.ring.backlog).sum

/-- A sweep takes as many packets from the backlog as it answers. -/
theorem backlog_sweepFrom (grid : Grid) (verbose : Bool) (place : Nat) (lanes : List (Lane g))
    (shutdown : Bool) {moved : Nat}
    (h : (sweepFrom grid verbose place lanes shutdown).result = .ok moved) :
    backlog (sweepFrom grid verbose place lanes shutdown).lanes + moved = backlog lanes := by
  induction lanes generalizing place shutdown moved with
  | nil =>
    simp only [sweepFrom] at h
    cases h
    simp [sweepFrom, backlog]
  | cons l rest ih =>
    simp only [sweepFrom] at h ⊢
    split at h
    · next stop =>
      cases h
      simp [stop]
    · next go =>
      rw [if_neg go]
      split at h
      · cases h
      · next one ok =>
        simp only [Pass.after] at h ⊢
        have moved_l := l.backlog_move (grid.coreAt place) place verbose ok
        match tail : (sweepFrom grid verbose (place + 1) rest
            (l.move (grid.coreAt place) place verbose).tripped).result with
        | .error e => rw [tail] at h; cases h
        | .ok n =>
          rw [tail] at h
          cases h
          have moved_rest := ih (place + 1) _ tail
          simp only [backlog, List.map_cons, List.sum_cons, Lane.ring_reportText] at moved_rest ⊢
          omega

/-! ## Repeated sweeps -/

/-- Goes on with sweeps until one moves nothing or fails, after sweeps that moved `counts` packets
and did `events`, both the last one first. -/
def drainFrom (grid : Grid) (verbose : Bool) (counts : List Nat) (events : List Event)
    (lanes : List (Lane g)) (shutdown : Bool) : Pass g (List Nat) :=
  let s := sweep grid verbose lanes shutdown
  let events := s.events.reverse ++ events
  match _h : s.result with
  | .error e => ⟨.error e, s.lanes, s.shutdown, events.reverse⟩
  | .ok 0 => ⟨.ok (0 :: counts).reverse, s.lanes, s.shutdown, events.reverse⟩
  | .ok (n + 1) => drainFrom grid verbose ((n + 1) :: counts) events s.lanes s.shutdown
termination_by backlog lanes
decreasing_by
  have step := backlog_sweepFrom grid verbose 0 lanes shutdown _h
  change backlog (sweepFrom grid verbose 0 lanes shutdown).lanes < backlog lanes
  omega

/-- Sweeps until a sweep moves nothing or fails. Answers what each sweep moved. -/
def drain (grid : Grid) (verbose : Bool) (lanes : List (Lane g)) (shutdown : Bool) :
    Pass g (List Nat) :=
  drainFrom grid verbose [] [] lanes shutdown

/-- A pass with earlier sweeps in front, which moved some packets and did some events. -/
def Pass.behind (counts : List Nat) (events : List Event) (p : Pass g (List Nat)) :
    Pass g (List Nat) :=
  ⟨p.result.map (counts ++ ·), p.lanes, p.shutdown, events ++ p.events⟩

@[simp] theorem Pass.behind_behind (cs ds : List Nat) (es fs : List Event)
    (p : Pass g (List Nat)) :
    (p.behind ds fs).behind cs es = p.behind (cs ++ ds) (es ++ fs) := by
  cases h : p.result <;> simp [Pass.behind, Except.map, h]

/-- Sweeps that came before go in front of the answer and change nothing else. -/
theorem drainFrom_eq_behind (grid : Grid) (verbose : Bool) (counts : List Nat)
    (events : List Event) (lanes : List (Lane g)) (shutdown : Bool) :
    drainFrom grid verbose counts events lanes shutdown
      = (drain grid verbose lanes shutdown).behind counts.reverse events.reverse := by
  unfold drain
  induction h : backlog lanes using Nat.strongRecOn generalizing counts events lanes shutdown with
  | ind m ih =>
    rw [drainFrom, drainFrom]
    split
    · next e failed => simp [Pass.behind, Except.map]
    · next none_moved => simp [Pass.behind, Except.map]
    · next n moved =>
      have step := backlog_sweepFrom grid verbose 0 lanes shutdown moved
      have fewer : backlog (sweep grid verbose lanes shutdown).lanes < m := by
        change backlog (sweepFrom grid verbose 0 lanes shutdown).lanes < m
        omega
      rw [ih _ fewer _ _ _ _ rfl, ih _ fewer [n + 1] _ _ _ rfl]
      simp

/-- A sweep that moves packets is followed by the sweeps of what it left. -/
theorem drain_eq (grid : Grid) (verbose : Bool) (lanes : List (Lane g)) (shutdown : Bool) :
    drain grid verbose lanes shutdown =
      let s := sweep grid verbose lanes shutdown
      match s.result with
      | .error e => ⟨.error e, s.lanes, s.shutdown, s.events⟩
      | .ok 0 => ⟨.ok [0], s.lanes, s.shutdown, s.events⟩
      | .ok (n + 1) => (drain grid verbose s.lanes s.shutdown).behind [n + 1] s.events := by
  rw [drain, drainFrom]
  split
  · next e failed => simp [failed]
  · next none_moved => simp [none_moved]
  · next n moved => simp [moved, drainFrom_eq_behind]

/-- How a run ended. -/
inductive Stop where
  | shutdown
  /-- Every ring is empty, and nothing happens until a producer or the operator does something. -/
  | idle
  deriving DecidableEq, Repr

/-- Sweeps until shutdown is requested, a write fails, or a sweep finds nothing to move. -/
def sweepOn (grid : Grid) (verbose : Bool) (lanes : List (Lane g)) (shutdown : Bool) :
    Pass g Stop :=
  let p := drain grid verbose lanes shutdown
  ⟨p.result.map fun _ => if p.shutdown then .shutdown else .idle, p.lanes, p.shutdown, p.events⟩

def total (lanes : List (Lane g)) : Nat :=
  (lanes.map Lane.consumed).sum

def startNotice (grid : Grid) (pollNanos : Nat) : Event :=
  .log (.consuming grid.count pollNanos)

def stopNotice (lanes : List (Lane g)) : Event :=
  .log (.shutdownRequested (total lanes))

def run (grid : Grid) (verbose : Bool) (pollNanos : Nat) (lanes : List (Lane g))
    (shutdown : Bool) : Pass g Stop :=
  let p := sweepOn grid verbose lanes shutdown
  match p.result with
  | .ok .shutdown =>
    { p with events := startNotice grid pollNanos :: (p.events ++ [stopNotice p.lanes]) }
  | _ => { p with events := startNotice grid pollNanos :: p.events }

/-! ## The end -/

/-- Flushes the sinks of lanes and lets them go, in order, the first of them at `place`. Every
sink is flushed; the first failure is answered, and otherwise the packets moved in each lane. -/
def finishFrom (grid : Grid) : Nat → List (Lane g) → Except TransportFailure (List Nat) × List Event
  | _, [] => (.ok [], [])
  | place, l :: rest =>
    let first := l.finish (grid.coreAt place) place
    let later := finishFrom grid (place + 1) rest
    match first.1 with
    | .error e => (.error e, first.2 ++ later.2)
    | .ok n => (later.1.map (n :: ·), first.2 ++ later.2)

def finish (grid : Grid) (lanes : List (Lane g)) :
    Except TransportFailure (List Nat) × List Event :=
  finishFrom grid 0 lanes

/-- The lanes of a new consumer; there has to be one ring and one sink for each core. -/
def attach (grid : Grid) (rings : List (Ring g)) (sinks : List Sink) :
    Except Fault (List (Lane g)) :=
  if rings.length ≠ grid.count then .error (.wrongCount "ring buffer" rings.length grid.count)
  else if sinks.length ≠ grid.count then .error (.wrongCount "sink" sinks.length grid.count)
  else .ok (List.zipWith Lane.new rings sinks)

end Consumer

end TraceRing
