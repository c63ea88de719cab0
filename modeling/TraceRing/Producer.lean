import TraceRing.Clock.Basic
import TraceRing.Encoder
import TraceRing.Log.Notice

/-!
# Producers

The producer of a core fills packets in memory of its own and publishes them to the ring of the
core. It never waits: when no slot is free, the packet is dropped and counted. Its own index is
the authoritative one, and the shared copy is only written.

After a look at the ring that found it full, the shared consumer index is read again only once
`timeout` clock units have passed; until then the ring counts as full. What an operation may touch
shows in its type: those that only look at the ring take the consumer index, those that only
change the producer give no ring back.
-/

namespace TraceRing

/-- The clock units a producer lets pass before it looks at a full ring again, unless told
otherwise. -/
def defaultTimeout : UInt64 := 10000000

/-- The producer of a core. -/
structure Producer (K E : Type) (g : Geometry) where
  grid : Grid
  core : Core
  clock : K
  encoder : E
  /-- The packet being filled. -/
  packet : Packet g
  /-- The number of published packets, wrapping. -/
  index : UInt32
  /-- The time of the last look at a full ring. -/
  lastCheck : UInt64
  /-- Whether the ring was full at the last look. -/
  waiting : Bool
  timeout : UInt64
  /-- The number of dropped packets, wrapping. -/
  dropped : UInt32
  tracing : Bool

namespace Producer

variable {K E : Type} {g : Geometry}

/-- A producer that does not trace yet. -/
def new (grid : Grid) (core : Core) (clock : K) (encoder : E) (timeout : UInt64) :
    Producer K E g where
  grid := grid
  core := core
  clock := clock
  encoder := encoder
  packet := Packet.zero g
  index := 0
  lastCheck := 0
  waiting := false
  timeout := timeout
  dropped := 0
  tracing := false

variable [TimeSource K]

def now (p : Producer K E g) : Except Fault UInt64 :=
  TimeSource.now p.clock

/-- Restarts the clock and forgets that the ring was full. -/
def restart (p : Producer K E g) : Producer K E g :=
  { p with clock := TimeSource.reset p.clock, waiting := false, lastCheck := 0 }

/-! ## Looking at the ring -/

/-- Looks at the shared consumer index, and starts to wait if no slot is free. -/
def look (p : Producer K E g) (consumerIndex : UInt32) : Except Fault Bool × Producer K E g :=
  let full := Ring.isFull g p.index consumerIndex
  let p := { p with waiting := full }
  if full then
    match p.now with
    | .error fault => (.error fault, p)
    | .ok t => (.ok true, { p with lastCheck := t })
  else (.ok false, p)

/-- Whether it is time to look at the ring: always, unless the wait for a free slot lasts. -/
def isDue (p : Producer K E g) : Except Fault Bool × Producer K E g :=
  if p.waiting then
    match p.now with
    | .error fault => (.error fault, p)
    | .ok t =>
      if t - p.lastCheck < p.timeout then (.ok false, p)
      else (.ok true, { p with lastCheck := t })
  else (.ok true, p)

/-- Whether no slot is free, without looking while the wait for one lasts. The clock may go on
before the look: `work` happens to it then. -/
def isBlockedAmid (work : K → K) (p : Producer K E g) (consumerIndex : UInt32) :
    Except Fault Bool × Producer K E g :=
  match p.isDue with
  | (.error fault, p) => (.error fault, p)
  | (.ok false, p) => (.ok true, p)
  | (.ok true, p) => look { p with clock := work p.clock } consumerIndex

/-- The same question on a clock that stands still meanwhile. -/
def isBlocked (p : Producer K E g) (consumerIndex : UInt32) :
    Except Fault Bool × Producer K E g :=
  p.isBlockedAmid id consumerIndex

theorem isBlocked_eq (p : Producer K E g) (consumerIndex : UInt32) :
    p.isBlocked consumerIndex =
      if p.waiting then
        match p.now with
        | .error fault => (.error fault, p)
        | .ok t =>
          if t - p.lastCheck < p.timeout then (.ok true, p)
          else look { p with lastCheck := t } consumerIndex
      else look p consumerIndex := by
  unfold isBlocked isBlockedAmid isDue
  cases p.waiting with
  | false => rfl
  | true =>
    cases p.now with
    | error fault => rfl
    | ok t =>
      by_cases hearly : t - p.lastCheck < p.timeout
      · simp only [hearly, if_true]
      · simp only [hearly, if_true, if_false, id]

/-- A look changes nothing but what is remembered of it. -/
theorem look_snd (p : Producer K E g) (consumerIndex : UInt32) :
    (p.look consumerIndex).2 =
      { p with
        waiting := (p.look consumerIndex).2.waiting
        lastCheck := (p.look consumerIndex).2.lastCheck } := by
  simp only [look]
  split
  · split <;> rfl
  · rfl

/-- The question whether no slot is free changes nothing but what is remembered of looks. -/
theorem isBlocked_snd (p : Producer K E g) (consumerIndex : UInt32) :
    (p.isBlocked consumerIndex).2 =
      { p with
        waiting := (p.isBlocked consumerIndex).2.waiting
        lastCheck := (p.isBlocked consumerIndex).2.lastCheck } := by
  simp only [isBlocked_eq]
  split
  · split
    · rfl
    · split
      · rfl
      · rw [look_snd]
  · rw [look_snd]

/-! ## Packets -/

/-- Publishes the packet in the slot of the producer's index. -/
def publish (p : Producer K E g) (r : Ring g) : Producer K E g × Ring g :=
  ({ p with index := p.index + 1 },
    (r.setSlot p.index p.packet).publishProducer (p.index + 1))

variable [PacketEncoder E g]

/-- Whether a packet is open. -/
def isOpen (p : Producer K E g) : Bool :=
  PacketEncoder.isOpen g p.encoder

/-- Whether the open packet holds no event. -/
def isEmpty (p : Producer K E g) : Bool :=
  PacketEncoder.isEmpty g p.encoder

def startPacket (p : Producer K E g) : Except Fault Unit × Producer K E g :=
  match p.now with
  | .error fault => (.error fault, p)
  | .ok t =>
    let opened := PacketEncoder.startPacket p.encoder t p.grid p.core p.packet
    (opened.1, { p with encoder := opened.2.1, packet := opened.2.2 })

/-- Finishes the open packet and publishes it; nothing happens if no packet is open. The caller
has seen to it that a slot is free. -/
def endPacket (p : Producer K E g) (r : Ring g) : Except Fault Unit × Producer K E g × Ring g :=
  if p.isOpen then
    match p.now with
    | .error fault => (.error fault, p, r)
    | .ok t =>
      let closed := PacketEncoder.endPacket p.encoder t p.packet
      let p := { p with encoder := closed.2.1, packet := closed.2.2 }
      match closed.1 with
      | .error fault => (.error fault, p, r)
      | .ok () =>
        if Ring.gap p.index r.consumerIndex < Ring.capacity g then
          (.ok (), p.publish r)
        else (.error .endedOnFullRing, p, r)
  else (.ok (), p, r)

/-- Starts a packet if a slot is free, and drops it otherwise, as the question for one was answered.
Answers whether it was started. -/
def proceed (asked : Except Fault Bool × Producer K E g) : Except Fault Bool × Producer K E g :=
  match asked with
  | (.error fault, p) => (.error fault, p)
  | (.ok true, p) => (.ok false, { p with dropped := p.dropped + 1 })
  | (.ok false, p) =>
    match p.startPacket with
    | (.error fault, p) => (.error fault, p)
    | (.ok (), p) => (.ok true, p)

/-- Starts a packet if a slot is free, and drops it otherwise. `work` happens to the clock before
the look. -/
def tryPacketAmid (work : K → K) (p : Producer K E g) (consumerIndex : UInt32) :
    Except Fault Bool × Producer K E g :=
  proceed (p.isBlockedAmid work consumerIndex)

/-- Starts a packet if a slot is free, and drops it otherwise. -/
def tryPacket (p : Producer K E g) (consumerIndex : UInt32) : Except Fault Bool × Producer K E g :=
  p.tryPacketAmid id consumerIndex

theorem tryPacket_eq (p : Producer K E g) (consumerIndex : UInt32) :
    p.tryPacket consumerIndex = proceed (p.isBlocked consumerIndex) :=
  rfl

/-! ## Sessions -/

/-- The producer with which a session starts. -/
def blank (p : Producer K E g) : Producer K E g :=
  { p with packet := Packet.zero g }.restart

/-- Starts tracing: restarts the clock and starts the first packet. Nothing happens if the
producer traces already. Answers the notice to be logged. `work` happens to the clock before the
look for a free slot. -/
def startSessionAmid (work : K → K) (p : Producer K E g) (consumerIndex : UInt32) :
    Except Fault (Option Log.Notice) × Producer K E g :=
  if p.tracing then (.ok none, p)
  else
    match p.blank.tryPacketAmid work consumerIndex with
    | (.error fault, p) => (.error fault, p)
    | (.ok _, p) => (.ok (some (.tracingStarted p.core)), { p with tracing := true })

/-- Starts tracing on a clock that stands still meanwhile. -/
def startSession (p : Producer K E g) (consumerIndex : UInt32) :
    Except Fault (Option Log.Notice) × Producer K E g :=
  p.startSessionAmid id consumerIndex

theorem startSession_eq (p : Producer K E g) (consumerIndex : UInt32) :
    p.startSession consumerIndex =
      if p.tracing then (.ok none, p)
      else
        match p.blank.tryPacket consumerIndex with
        | (.error fault, p) => (.error fault, p)
        | (.ok _, p) => (.ok (some (.tracingStarted p.core)), { p with tracing := true }) :=
  rfl

def halt (p : Producer K E g) : Producer K E g :=
  { p with clock := TimeSource.stop p.clock, tracing := false }

/-- Stops tracing: publishes the open packet if it holds events, and stops the clock. Nothing
happens if the producer does not trace. Answers the notice to be logged. -/
def endSession (p : Producer K E g) (r : Ring g) :
    Except Fault (Option Log.Notice) × Producer K E g × Ring g :=
  if p.tracing then
    let closed :=
      if p.isOpen && !p.isEmpty then p.endPacket r else (.ok (), p, r)
    match closed with
    | (.error fault, p, r) => (.error fault, p, r)
    | (.ok (), p, r) =>
      (.ok (some (.tracingStopped p.core p.index p.dropped)), p.halt, r)
  else (.ok none, p, r)

/-! ## Rounds -/

/-- Lets a caller work on the encoder and on the packet being filled. -/
def edit (p : Producer K E g) (work : E → Packet g → E × Packet g) : Producer K E g :=
  { p with
    encoder := (work p.encoder p.packet).1
    packet := (work p.encoder p.packet).2 }

def setTimeout (p : Producer K E g) (timeout : UInt64) : Producer K E g :=
  { p with timeout := timeout }

def addEvents (p : Producer K Encoder g) (n : UInt32) : Producer K Encoder g :=
  { p with encoder := p.encoder.addEvents n }

def poke (p : Producer K E g) (offset : Nat) (bytes : Bytes) :
    Except Fault Unit × Producer K E g :=
  match p.packet.patch offset bytes with
  | .error fault => (.error fault, p)
  | .ok packet => (.ok (), { p with packet := packet })

/-- Publishes a packet with one event, if a slot is free. Answers whether one was started. -/
def publishEvent (p : Producer K Encoder g) (r : Ring g) :
    Except Fault Bool × Producer K Encoder g × Ring g :=
  match p.tryPacket r.consumerIndex with
  | (.error fault, p) => (.error fault, p, r)
  | (.ok false, p) => (.ok false, p, r)
  | (.ok true, p) =>
    match (p.addEvents 1).endPacket r with
    | (.error fault, p, r) => (.error fault, p, r)
    | (.ok (), p, r) => (.ok true, p, r)

/-- Tries a number of times to publish an empty packet. Answers how often a slot was free. A look
at a full ring that left the producer as it was ends the burst: all further ones would do the
same. -/
def burst : Nat → Producer K E g → Ring g → Except Fault Nat × Producer K E g × Ring g
  | 0, p, r => (.ok 0, p, r)
  | n + 1, p, r =>
    match p.isBlocked r.consumerIndex with
    | (.error fault, p) => (.error fault, p, r)
    | (.ok true, p') =>
      if p'.waiting = p.waiting ∧ p'.lastCheck = p.lastCheck then (.ok 0, p', r)
      else burst n p' r
    | (.ok false, p) =>
      match p.startPacket with
      | (.error fault, p) => (.error fault, p, r)
      | (.ok (), p) =>
        match p.endPacket r with
        | (.error fault, p, r) => (.error fault, p, r)
        | (.ok (), p, r) =>
          let later := burst n p r
          (later.1.map (· + 1), later.2)

end Producer

end TraceRing
