import TraceRing.Clock.Ticked
import TraceRing.Consumer
import TraceRing.Log.Bounded
import TraceRing.Producer

/-!
# The transport

A whole transport: the lanes of all cores, some producers with a simulated clock each, and one
consumer. A run is a list of steps in any order, each of one party; a fault ends a step and
leaves what the step did before it.
-/

namespace TraceRing

/-- A producer at the ring of a place. -/
structure Station (bits : Nat) (g : Geometry) where
  producer : Producer (TickedClock bits) Encoder g
  place : Nat

/-- A transport of clocks of `bits` bits and rings of a geometry. -/
structure Transport (bits : Nat) (g : Geometry) where
  grid : Grid
  lanes : List (Lane g)
  stations : List (Station bits g)
  /-- Whether the consumer reports every packet. -/
  verbose : Bool
  /-- Whether shutdown is requested. -/
  shutdown : Bool
  /-- Whether the consumer has let its sinks go. -/
  finished : Bool

namespace Transport

variable {bits : Nat} {g : Geometry}

/-! ## Construction -/

/-- The producer of a core with a timeout, before its first session, at one of `rings` rings. -/
def newStation (bits : Nat) (g : Geometry) (grid : Grid) (rings : Nat) (core : Core)
    (timeout : UInt64) : Except Fault (Station bits g) :=
  match grid.index core with
  | .error fault => .error fault
  | .ok place =>
    if place < rings then
      .ok ⟨Producer.new grid core (TickedClock.new bits) Encoder.new timeout, place⟩
    else .error (.indexOutOfBounds rings place)

/-- A new transport of empty rings. -/
def build (bits : Nat) (g : Geometry) (grid : Grid) (rings : Nat) (sinks : List Sink)
    (producers : List (Core × UInt64)) (verbose shutdown : Bool) :
    Except Fault (Transport bits g) := do
  let stations ← producers.mapM fun p => newStation bits g grid rings p.1 p.2
  let lanes ← Consumer.attach grid (List.replicate rings (Ring.empty g)) sinks
  return ⟨grid, lanes, stations, verbose, shutdown, false⟩

/-! ## Steps -/

inductive ProducerOp where
  | clock (op : TickedClock.Op)
  | startSession
  | endSession
  | restart
  | now
  | isBlocked
  | startPacket
  | endPacket
  | tryPacket
  | publishEvent
  | burst (n : Nat)
  | addEvents (n : UInt32)
  | poke (offset : Nat) (bytes : Bytes)
  | setTimeout (timeout : UInt64)
  | writeText (message : Bytes)
  | say (level : Log.Level) (pieces : List Bytes)

inductive ConsumerOp where
  | move (core : Core)
  | sweep
  | run (pollNanos : Nat)
  | consumed (core : Core)
  | received (core : Core)
  | finish

inductive Step (g : Geometry) where
  | producer (i : Nat) (op : ProducerOp)
  /-- A caller works on the encoder and the packet of the producer `i`. -/
  | edit (i : Nat) (work : Encoder → Packet g → Encoder × Packet g)
  | ring (place : Nat) (op : Ring.Op g)
  | setShutdown (requested : Bool)
  | consumer (op : ConsumerOp)

inductive Answer (g : Geometry) where
  | done
  | flag (b : Bool)
  | stamp (t : UInt64)
  | count (n : Nat)
  | counts (ns : List Nat)
  /-- The packets moved from one core, and from all. -/
  | moved (core total : Nat)
  | bytes (bs : Bytes)
  | ring (a : Ring.Answer g)
  | stopped (s : Consumer.Stop)
  | failed (e : TransportFailure)
  | finished
  /-- There is no such producer. -/
  | absent

structure Outcome (bits : Nat) (g : Geometry) where
  result : Except Fault (Answer g)
  transport : Transport bits g
  events : List Event

/-! ## Steps of producers -/

/-- The notices to be logged, as events. -/
def eventsOf (notice : Option Log.Notice) : List Event :=
  notice.toList.map .log

/-- Runs an operation of a producer at its ring. -/
def runProducer (p : Producer (TickedClock bits) Encoder g) (r : Ring g) :
    ProducerOp →
      (Except Fault (Answer g) × List Event) × Producer (TickedClock bits) Encoder g × Ring g
  | .clock op =>
    let done := TickedClock.run p.clock op
    ((.ok ((done.1.map Answer.flag).getD .done), []), { p with clock := done.2 }, r)
  | .startSession =>
    let done := p.startSession r.consumerIndex
    match done.1 with
    | .error fault => ((.error fault, []), done.2, r)
    | .ok notice => ((.ok .done, eventsOf notice), done.2, r)
  | .endSession =>
    let done := p.endSession r
    match done.1 with
    | .error fault => ((.error fault, []), done.2)
    | .ok notice => ((.ok .done, eventsOf notice), done.2)
  | .restart => ((.ok .done, []), p.restart, r)
  | .now => ((p.now.map .stamp, []), p, r)
  | .isBlocked =>
    let done := p.isBlocked r.consumerIndex
    ((done.1.map .flag, []), done.2, r)
  | .startPacket =>
    let done := p.startPacket
    ((done.1.map fun _ => .done, []), done.2, r)
  | .endPacket =>
    let done := p.endPacket r
    ((done.1.map fun _ => .done, []), done.2)
  | .tryPacket =>
    let done := p.tryPacket r.consumerIndex
    ((done.1.map .flag, []), done.2, r)
  | .publishEvent =>
    let done := p.publishEvent r
    ((done.1.map .flag, []), done.2)
  | .burst n =>
    let done := Producer.burst n p r
    ((done.1.map .count, []), done.2)
  | .addEvents n => ((.ok .done, []), p.addEvents n, r)
  | .poke offset bytes =>
    let done := p.poke offset bytes
    ((done.1.map fun _ => .done, []), done.2, r)
  | .setTimeout timeout => ((.ok .done, []), p.setTimeout timeout, r)
  | .writeText message => ((.ok .done, []), p, r.writeText message)
  | .say level pieces => ((.ok .done, []), p, r.writeText (Log.coreMessage level pieces))

/-- The transport after the ring at a place was replaced. -/
def setRing (t : Transport bits g) (place : Nat) (r : Ring g) : Transport bits g :=
  { t with lanes := t.lanes.modify place fun l => { l with ring := r } }

def stepProducer (t : Transport bits g) (i : Nat) (op : ProducerOp) : Outcome bits g :=
  match t.stations[i]? with
  | none => ⟨.ok .absent, t, []⟩
  | some s =>
    match t.lanes[s.place]? with
    | none => ⟨.error (.indexOutOfBounds t.lanes.length s.place), t, []⟩
    | some l =>
      let done := runProducer s.producer l.ring op
      let t := { t with stations := t.stations.set i { s with producer := done.2.1 } }
      ⟨done.1.1, t.setRing s.place done.2.2, done.1.2⟩

/-- Lets a caller work on the encoder and the packet of the producer `i`. -/
def stepEdit (t : Transport bits g) (i : Nat) (work : Encoder → Packet g → Encoder × Packet g) :
    Outcome bits g :=
  match t.stations[i]? with
  | none => ⟨.ok .absent, t, []⟩
  | some s =>
    ⟨.ok .done, { t with stations := t.stations.set i { s with producer := s.producer.edit work } },
      []⟩

/-! ## Steps of the consumer -/

/-- The place of a core and the lane there. -/
def laneOf (t : Transport bits g) (core : Core) : Except Fault (Nat × Lane g) :=
  match t.grid.index core with
  | .error fault => .error fault
  | .ok place =>
    match t.lanes[place]? with
    | none => .error (.indexOutOfBounds t.lanes.length place)
    | some l => .ok (place, l)

/-- The outcome of a pass over all lanes. -/
def ofPass {α : Type} (t : Transport bits g) (p : Consumer.Pass g α) (answer : α → Answer g) :
    Outcome bits g :=
  let result := match p.result with
    | .error e => Answer.failed e
    | .ok a => answer a
  ⟨.ok result, { t with lanes := p.lanes, shutdown := p.shutdown }, p.events⟩

def stepMove (t : Transport bits g) (core : Core) : Outcome bits g :=
  match t.laneOf core with
  | .error fault => ⟨.error fault, t, []⟩
  | .ok (place, l) =>
    let m := l.move core place t.verbose
    let result := match m.result with
      | .error e => Answer.failed e
      | .ok moved => .flag moved
    ⟨.ok result,
      { t with lanes := t.lanes.set place m.lane, shutdown := t.shutdown || m.tripped }, m.events⟩

/-- Runs an operation of a consumer that still has its sinks. -/
def runConsumer (t : Transport bits g) : ConsumerOp → Outcome bits g
  | .move core => t.stepMove core
  | .sweep => t.ofPass (Consumer.sweep t.grid t.verbose t.lanes t.shutdown) .count
  | .run pollNanos =>
    t.ofPass (Consumer.run t.grid t.verbose pollNanos t.lanes t.shutdown) .stopped
  | .consumed core =>
    ⟨(t.laneOf core).map fun l => .moved l.2.consumed (Consumer.total t.lanes), t, []⟩
  | .received core => ⟨(t.laneOf core).map fun l => .bytes l.2.sink.received, t, []⟩
  | .finish =>
    let done := Consumer.finish t.grid t.lanes
    let result := match done.1 with
      | .error e => Answer.failed e
      | .ok counts => .counts counts
    ⟨.ok result, { t with finished := true }, done.2⟩

/-! ## Runs -/

/-- Runs a step. -/
def step (t : Transport bits g) : Step g → Outcome bits g
  | .producer i op => t.stepProducer i op
  | .edit i work => t.stepEdit i work
  | .ring place op =>
    match t.lanes[place]? with
    | none => ⟨.error (.indexOutOfBounds t.lanes.length place), t, []⟩
    | some l =>
      let done := l.ring.run op
      ⟨.ok (.ring done.1), t.setRing place done.2, []⟩
  | .setShutdown requested => ⟨.ok .done, { t with shutdown := requested }, []⟩
  | .consumer op => if t.finished then ⟨.ok .finished, t, []⟩ else t.runConsumer op

def after (t : Transport bits g) (steps : List (Step g)) : Transport bits g :=
  steps.foldl (fun t s => (t.step s).transport) t

/-- What each sink has received, by the name of its stream; empty streams are left out. -/
def streams (t : Transport bits g) : List (String × Bytes) :=
  (t.lanes.zipIdx.map fun l => ((t.grid.coreAt l.2).streamName, l.1.sink.received)).filter
    fun s => !s.2.isEmpty

end Transport

end TraceRing
