import TraceRing.Producer
import TraceRing.Proofs.Ring.Carries

/-!
# What a producer sends

Of all calls of a producer, only those that end an open packet touch the indices and slots of its
ring. `Ending` lists the ways such a call can go, faults included; later proofs go by it and do not
open `endPacket`.

`Producer.Feeds` says that a producer and its ring agree on the packets sent so far. Every call
keeps it, with the packets of `Producer.sent` added, whether or not a packet is open, a slot is
free, or an earlier call ended in a fault.
-/

namespace TraceRing

variable {g : Geometry}

namespace Producer

variable {K E : Type}

/-! ## Producers and their rings -/

/-- The ring carries the packets sent so far, and the producer's own index comes after them. -/
structure Feeds (p : Producer K E g) (r : Ring g) (base : Nat) (sent : List (Packet g))
    (taken : Nat) : Prop where
  ring : r.Carries base sent taken
  index : p.index = UInt32.ofNat (base + sent.length)

namespace Feeds

variable {p : Producer K E g} {r : Ring g} {base taken : Nat} {sent : List (Packet g)}

theorem index_eq (h : p.Feeds r base sent taken) : p.index = r.producerIndex :=
  h.index.trans h.ring.producerIndex.symm

theorem gap_lt_capacity_iff (h : p.Feeds r base sent taken) :
    Ring.gap p.index r.consumerIndex < Ring.capacity g ↔ sent.length < taken + g.slots := by
  rw [h.index_eq]
  exact h.ring.gap_lt_capacity_iff

theorem isFull_iff (h : p.Feeds r base sent taken) :
    Ring.isFull g p.index r.consumerIndex = true ↔ sent.length = taken + g.slots := by
  rw [h.index_eq]
  exact h.ring.isFull_iff

/-- A slot is free if the ring does not look full. -/
theorem room_of_isFull (h : p.Feeds r base sent taken)
    (hfull : Ring.isFull g p.index r.consumerIndex = false) : sent.length < taken + g.slots := by
  have hlen := h.ring.length_le
  have hne : ¬ sent.length = taken + g.slots := by
    rw [← h.isFull_iff, hfull]
    exact Bool.false_ne_true
  omega

/-- Only the index of a producer counts. -/
theorem congr (h : p.Feeds r base sent taken) {p' : Producer K E g} (hindex : p'.index = p.index) :
    p'.Feeds r base sent taken :=
  ⟨h.ring, hindex.trans h.index⟩

theorem writeText (h : p.Feeds r base sent taken) (message : Bytes) :
    p.Feeds (r.writeText message) base sent taken :=
  ⟨h.ring.writeText message, h.index⟩

theorem publish (h : p.Feeds r base sent taken) (hroom : sent.length < taken + g.slots) :
    (p.publish r).1.Feeds (p.publish r).2 base (sent ++ [p.packet]) taken := by
  have hstored := h.ring.setSlot hroom p.packet
  refine ⟨?_, ?_⟩
  · simp only [Producer.publish, h.index]
    exact hstored.publishProducer hroom (Ring.getSlot_setSlot_self r _ _)
  · simp only [Producer.publish, h.index, List.length_append, List.length_singleton,
      ← Nat.add_assoc]
    exact (UInt32.ofNat_add (base + sent.length) 1).symm

end Feeds

/-! ## The encoder of headers -/

/-- Whether a packet is open is what the encoder remembers of it. -/
theorem isOpen_eq (p : Producer K Encoder g) : p.isOpen = p.encoder.isOpen :=
  rfl

theorem isEmpty_eq (p : Producer K Encoder g) : p.isEmpty = p.encoder.isEmpty :=
  rfl

variable [TimeSource K]

/-! ## Calls that leave the ring alone -/

@[simp] theorem index_halt (p : Producer K E g) : p.halt.index = p.index :=
  rfl

@[simp] theorem index_restart (p : Producer K E g) : p.restart.index = p.index :=
  rfl

@[simp] theorem index_isBlocked (p : Producer K E g) (consumerIndex : UInt32) :
    (p.isBlocked consumerIndex).2.index = p.index := by
  rw [isBlocked_snd]

@[simp] theorem encoder_isBlocked (p : Producer K E g) (consumerIndex : UInt32) :
    (p.isBlocked consumerIndex).2.encoder = p.encoder := by
  rw [isBlocked_snd]

variable [PacketEncoder E g]

@[simp] theorem isOpen_isBlocked (p : Producer K E g) (consumerIndex : UInt32) :
    (p.isBlocked consumerIndex).2.isOpen = p.isOpen := by
  rw [isOpen, encoder_isBlocked, isOpen]

/-- Starting a packet works on the encoder and the packet alone. -/
theorem startPacket_snd (p : Producer K E g) :
    p.startPacket.2 =
      { p with encoder := p.startPacket.2.encoder, packet := p.startPacket.2.packet } := by
  simp only [startPacket]
  split <;> rfl

@[simp] theorem index_startPacket (p : Producer K E g) : p.startPacket.2.index = p.index := by
  rw [startPacket_snd]

/-- To start a packet or drop it is to work on the packet alone, and only a free slot leads to work
on the encoder. -/
theorem proceed_snd (asked : Except Fault Bool × Producer K E g) :
    ∃ encoder packet dropped,
      (proceed asked).2 =
        { asked.2 with encoder := encoder, packet := packet, dropped := dropped } ∧
      (asked.1 ≠ .ok false → encoder = asked.2.encoder) := by
  obtain ⟨_ | _ | _, p⟩ := asked
  · exact ⟨_, _, _, rfl, fun _ => rfl⟩
  · refine ⟨p.startPacket.2.encoder, p.startPacket.2.packet, p.dropped, ?_, ?_⟩
    · have hstart := p.startPacket_snd
      simp only [proceed]
      generalize p.startPacket = started at hstart ⊢
      obtain ⟨_ | _, p'⟩ := started <;> exact hstart
    · exact fun hne => absurd rfl hne
  · exact ⟨_, _, _, rfl, fun _ => rfl⟩

/-- An attempt to open a packet asks, and then works on the packet alone; it leaves the encoder
alone unless a slot is free. -/
theorem tryPacket_snd (p : Producer K E g) (consumerIndex : UInt32) :
    ∃ encoder packet dropped,
      (p.tryPacket consumerIndex).2 =
        { (p.isBlocked consumerIndex).2 with
          encoder := encoder
          packet := packet
          dropped := dropped } ∧
      ((p.isBlocked consumerIndex).1 ≠ .ok false → encoder = p.encoder) := by
  obtain ⟨encoder, packet, dropped, hproceed, hencoder⟩ := proceed_snd (p.isBlocked consumerIndex)
  rw [encoder_isBlocked] at hencoder
  exact ⟨encoder, packet, dropped, hproceed, hencoder⟩

@[simp] theorem index_tryPacket (p : Producer K E g) (consumerIndex : UInt32) :
    (p.tryPacket consumerIndex).2.index = p.index := by
  obtain ⟨encoder, packet, dropped, htry, -⟩ := p.tryPacket_snd consumerIndex
  rw [htry]
  exact p.index_isBlocked consumerIndex

/-- A session starts with an attempt to open a packet; beyond that, the producer traces from then
on. -/
theorem startSessionAmid_of_idle {p : Producer K E g} (htracing : p.tracing = false)
    (work : K → K) (consumerIndex : UInt32) :
    (p.startSessionAmid work consumerIndex).2 =
      { (p.blank.tryPacketAmid work consumerIndex).2 with
        tracing := (p.startSessionAmid work consumerIndex).2.tracing } := by
  rw [startSessionAmid, htracing, if_neg Bool.false_ne_true]
  split
  · next heq => rw [heq]
  · next heq => rw [heq]

theorem startSession_of_idle {p : Producer K E g} (htracing : p.tracing = false)
    (consumerIndex : UInt32) :
    (p.startSession consumerIndex).2 =
      { (p.blank.tryPacket consumerIndex).2 with
        tracing := (p.startSession consumerIndex).2.tracing } :=
  startSessionAmid_of_idle htracing id consumerIndex

@[simp] theorem index_startSession (p : Producer K E g) (consumerIndex : UInt32) :
    (p.startSession consumerIndex).2.index = p.index := by
  cases htracing : p.tracing with
  | true => simp [startSession_eq, htracing]
  | false =>
    rw [startSession_of_idle htracing]
    exact p.blank.index_tryPacket consumerIndex

/-! ## Ending a packet -/

/-- The producer with its packet finished at a time, as far as that went. -/
def sealed (p : Producer K E g) (time : UInt64) : Producer K E g :=
  { p with
    encoder := (PacketEncoder.endPacket p.encoder time p.packet).2.1
    packet := (PacketEncoder.endPacket p.encoder time p.packet).2.2 }

omit [TimeSource K] in
@[simp] theorem index_sealed (p : Producer K E g) (time : UInt64) :
    (p.sealed time).index = p.index :=
  rfl

/-- How ending a packet can go. -/
inductive Ending (p : Producer K E g) (r : Ring g) :
    Except Fault Unit × Producer K E g × Ring g → Prop where
  /-- No packet is open. -/
  | idle (hclosed : p.isOpen = false) : Ending p r (.ok (), p, r)
  /-- The clock cannot be read. -/
  | timeless {fault : Fault} (hopen : p.isOpen = true) (hnow : p.now = .error fault) :
      Ending p r (.error fault, p, r)
  /-- The encoder cannot finish the packet. -/
  | cramped {time : UInt64} {fault : Fault} (hopen : p.isOpen = true)
      (hnow : p.now = .ok time)
      (hend : (PacketEncoder.endPacket p.encoder time p.packet).1 = .error fault) :
      Ending p r (.error fault, p.sealed time, r)
  /-- No slot is free. -/
  | full {time : UInt64} (hopen : p.isOpen = true) (hnow : p.now = .ok time)
      (hend : (PacketEncoder.endPacket p.encoder time p.packet).1 = .ok ())
      (hfull : ¬ Ring.gap p.index r.consumerIndex < Ring.capacity g) :
      Ending p r (.error .endedOnFullRing, p.sealed time, r)
  /-- The packet is published. -/
  | published {time : UInt64} (hopen : p.isOpen = true) (hnow : p.now = .ok time)
      (hend : (PacketEncoder.endPacket p.encoder time p.packet).1 = .ok ())
      (hroom : Ring.gap p.index r.consumerIndex < Ring.capacity g) :
      Ending p r (.ok (), (p.sealed time).publish r)

theorem ending (p : Producer K E g) (r : Ring g) : Ending p r (p.endPacket r) := by
  simp only [endPacket]
  split
  · next hopen =>
    split
    · next fault hnow => exact .timeless hopen hnow
    · next time hnow =>
      split
      · next fault hend => exact .cramped hopen hnow hend
      · next hend =>
        split
        · next hroom => exact .published hopen hnow hend hroom
        · next hfull => exact .full hopen hnow hend hfull
  · next hclosed => exact .idle (by simpa using hclosed)

/-- The packet that ending a packet publishes, as it stands in the producer's memory when it is
closed; none if no packet is open or the call faults. -/
def closing (p : Producer K E g) (r : Ring g) : Option (Packet g) :=
  match (p.endPacket r).1 with
  | .ok () => if p.isOpen then some (p.endPacket r).2.1.packet else none
  | .error _ => none

/-- The packet that ending a session publishes. -/
def lastClosing (p : Producer K E g) (r : Ring g) : Option (Packet g) :=
  if p.tracing && p.isOpen && !p.isEmpty then p.closing r else none

/-- How ending a session can go. -/
inductive SessionEnding (p : Producer K E g) (r : Ring g) :
    Except Fault (Option Log.Notice) × Producer K E g × Ring g → Prop where
  /-- The producer does not trace. -/
  | idle (htracing : p.tracing = false) : SessionEnding p r (.ok none, p, r)
  /-- There is no packet to be published. -/
  | quiet {notice : Option Log.Notice} (htracing : p.tracing = true)
      (hnone : (p.isOpen && !p.isEmpty) = false) :
      SessionEnding p r (.ok notice, p.halt, r)
  /-- The last packet cannot be published, and the session goes on. -/
  | stuck {fault : Fault} {p' : Producer K E g} {r' : Ring g} (htracing : p.tracing = true)
      (hlast : (p.isOpen && !p.isEmpty) = true)
      (hend : p.endPacket r = (.error fault, p', r')) : SessionEnding p r (.error fault, p', r')
  /-- The last packet is published. -/
  | ended {notice : Option Log.Notice} {p' : Producer K E g} {r' : Ring g}
      (htracing : p.tracing = true)
      (hlast : (p.isOpen && !p.isEmpty) = true)
      (hend : p.endPacket r = (.ok (), p', r')) : SessionEnding p r (.ok notice, p'.halt, r')

theorem sessionEnding (p : Producer K E g) (r : Ring g) : SessionEnding p r (p.endSession r) := by
  simp only [endSession]
  cases htracing : p.tracing with
  | false => exact .idle htracing
  | true =>
    cases hlast : p.isOpen && !p.isEmpty with
    | false => exact .quiet htracing hlast
    | true =>
      simp only [if_true]
      split
      · next hend => exact .stuck htracing hlast hend
      · next hend => exact .ended htracing hlast hend

/-- What holds before a session is ended and where its packet is ended, and is kept by a halt, holds
after the session. -/
theorem endSession_keeps {motive : Producer K E g → Ring g → Prop} {p : Producer K E g} {r : Ring g}
    (hbefore : motive p r) (hend : motive (p.endPacket r).2.1 (p.endPacket r).2.2)
    (hhalt : ∀ p' r', motive p' r' → motive p'.halt r') :
    motive (p.endSession r).2.1 (p.endSession r).2.2 := by
  have hending := p.sessionEnding r
  generalize p.endSession r = done at hending ⊢
  cases hending with
  | idle htracing => exact hbefore
  | quiet htracing hnone => exact hhalt _ _ hbefore
  | stuck htracing hlast heq =>
    rw [heq] at hend
    exact hend
  | ended htracing hlast heq =>
    rw [heq] at hend
    exact hhalt _ _ hend

/-! ## Calls that end a packet -/

namespace Feeds

variable {p : Producer K E g} {r : Ring g} {base taken : Nat} {sent : List (Packet g)}

/-- Ending a packet sends the packet it publishes. -/
theorem endPacket (h : p.Feeds r base sent taken) :
    (p.endPacket r).2.1.Feeds (p.endPacket r).2.2 base (sent ++ (p.closing r).toList) taken := by
  have hending := p.ending r
  unfold closing
  generalize p.endPacket r = done at hending ⊢
  cases hending with
  | idle hclosed => simpa [hclosed] using h
  | timeless hopen hnow => simpa using h
  | cramped hopen hnow hend => simpa using h.congr (p.index_sealed _)
  | full hopen hnow hend hfull => simpa using h.congr (p.index_sealed _)
  | @published time hopen hnow hend hroom =>
    have hsealed : (p.sealed time).Feeds r base sent taken := h.congr (p.index_sealed time)
    simpa [hopen, Producer.publish] using hsealed.publish (h.gap_lt_capacity_iff.mp hroom)

theorem endSession (h : p.Feeds r base sent taken) :
    (p.endSession r).2.1.Feeds (p.endSession r).2.2 base (sent ++ (p.lastClosing r).toList)
      taken := by
  have hending := p.sessionEnding r
  have hend := h.endPacket
  unfold lastClosing
  generalize p.endSession r = done at hending ⊢
  cases hending with
  | idle htracing => simpa [htracing] using h
  | quiet htracing hnone => simpa [htracing, hnone] using h.congr p.index_halt
  | stuck htracing hlast heq =>
    simp only [htracing, hlast, Bool.true_and, if_true]
    rw [heq] at hend
    exact hend
  | ended htracing hlast heq =>
    simp only [htracing, hlast, Bool.true_and, if_true]
    rw [heq] at hend
    exact hend.congr rfl

end Feeds

/-! ## Calls -/

/-- A call of a producer. -/
inductive Call (E : Type) (g : Geometry) where
  | startSession
  | endSession
  | restart
  | now
  | isBlocked
  | startPacket
  | endPacket
  | tryPacket
  | edit (work : E → Packet g → E × Packet g)
  | setTimeout (timeout : UInt64)
  | writeText (message : Bytes)

/-- Makes a call of a producer at its ring. -/
def call (p : Producer K E g) (r : Ring g) : Call E g → Except Fault Unit × Producer K E g × Ring g
  | .startSession =>
    ((p.startSession r.consumerIndex).1.map fun _ => (), (p.startSession r.consumerIndex).2, r)
  | .endSession => ((p.endSession r).1.map fun _ => (), (p.endSession r).2)
  | .restart => (.ok (), p.restart, r)
  | .now => (p.now.map fun _ => (), p, r)
  | .isBlocked =>
    ((p.isBlocked r.consumerIndex).1.map fun _ => (), (p.isBlocked r.consumerIndex).2, r)
  | .startPacket => (p.startPacket.1, p.startPacket.2, r)
  | .endPacket => p.endPacket r
  | .tryPacket =>
    ((p.tryPacket r.consumerIndex).1.map fun _ => (), (p.tryPacket r.consumerIndex).2, r)
  | .edit work => (.ok (), p.edit work, r)
  | .setTimeout timeout => (.ok (), p.setTimeout timeout, r)
  | .writeText message => (.ok (), p, r.writeText message)

/-- The packets that a call publishes. -/
def sent (p : Producer K E g) (r : Ring g) : Call E g → List (Packet g)
  | .endPacket => (p.closing r).toList
  | .endSession => (p.lastClosing r).toList
  | _ => []

/-- Whatever the call and whatever came before it, the ring carries what the producer sent. -/
theorem Feeds.call {p : Producer K E g} {r : Ring g} {base taken : Nat} {sent : List (Packet g)}
    (h : p.Feeds r base sent taken) (c : Call E g) :
    (p.call r c).2.1.Feeds (p.call r c).2.2 base (sent ++ p.sent r c) taken := by
  cases c with
  | endSession => exact h.endSession
  | endPacket => exact h.endPacket
  | writeText message =>
    simpa only [Producer.call, Producer.sent, List.append_nil] using h.writeText message
  | now => simpa only [Producer.call, Producer.sent, List.append_nil] using h
  | _ =>
    -- the other calls leave the ring and the index alone
    simp only [Producer.call, Producer.sent, List.append_nil]
    refine h.congr ?_
    simp [edit, setTimeout]

/-! ## Rounds -/

/-- The packets that `burst` publishes, in order. -/
def burstSent : Nat → Producer K E g → Ring g → List (Packet g)
  | 0, _, _ => []
  | n + 1, p, r =>
    match p.isBlocked r.consumerIndex with
    | (.error _, _) => []
    | (.ok true, p') =>
      if p'.waiting = p.waiting ∧ p'.lastCheck = p.lastCheck then [] else burstSent n p' r
    | (.ok false, p) =>
      match p.startPacket with
      | (.error _, _) => []
      | (.ok (), p) =>
        (p.closing r).toList ++
          match p.endPacket r with
          | (.error _, _) => []
          | (.ok (), p, r) => burstSent n p r

theorem Feeds.burst {p : Producer K E g} {r : Ring g} {base taken : Nat} {sent : List (Packet g)}
    (h : p.Feeds r base sent taken) (n : Nat) :
    (Producer.burst n p r).2.1.Feeds (Producer.burst n p r).2.2 base (sent ++ burstSent n p r)
      taken := by
  -- induction on the tries left; each goes on with the ring the one before left
  induction n generalizing p r sent with
  | zero => simpa [Producer.burst, burstSent] using h
  | succ n ih =>
    have hlook := p.index_isBlocked r.consumerIndex
    simp only [Producer.burst, burstSent]
    generalize p.isBlocked r.consumerIndex = looked at hlook ⊢
    obtain ⟨result, p'⟩ := looked
    have hlooked : p'.Feeds r base sent taken := h.congr hlook
    cases result with
    | error fault => simpa using hlooked
    | ok blocked =>
      cases blocked with
      | true =>
        dsimp only
        split
        -- a look that changed nothing ends the burst
        · simpa using hlooked
        · exact ih hlooked
      | false =>
        have hstart := p'.index_startPacket
        dsimp only
        generalize p'.startPacket = started at hstart ⊢
        obtain ⟨result, opened⟩ := started
        have hopened : opened.Feeds r base sent taken := hlooked.congr hstart
        cases result with
        | error fault => simpa using hopened
        | ok _ =>
          have hend := hopened.endPacket
          -- ending the packet is the only part of a try that sends
          dsimp only
          generalize opened.endPacket r = ended at hend ⊢
          obtain ⟨result, closed, r'⟩ := ended
          cases result with
          | error fault => simpa using hend
          | ok _ =>
            rw [← List.append_assoc]
            exact ih hend

/-- The packets that `publishEvent` publishes. -/
def eventSent (p : Producer K Encoder g) (r : Ring g) : List (Packet g) :=
  match p.tryPacket r.consumerIndex with
  | (.ok true, p) => ((p.addEvents 1).closing r).toList
  | _ => []

theorem Feeds.publishEvent {p : Producer K Encoder g} {r : Ring g} {base taken : Nat}
    {sent : List (Packet g)} (h : p.Feeds r base sent taken) :
    (p.publishEvent r).2.1.Feeds (p.publishEvent r).2.2 base (sent ++ p.eventSent r) taken := by
  have htry := p.index_tryPacket r.consumerIndex
  simp only [Producer.publishEvent, eventSent]
  generalize p.tryPacket r.consumerIndex = tried at htry ⊢
  obtain ⟨result, p'⟩ := tried
  cases result with
  | error fault => simpa using h.congr htry
  | ok started =>
    cases started with
    | false => simpa using h.congr htry
    | true =>
      have hevent : (p'.addEvents 1).Feeds r base sent taken := h.congr htry
      have hend := hevent.endPacket
      dsimp only
      split
      · next heq =>
        rw [heq] at hend
        exact hend
      · next heq =>
        rw [heq] at hend
        exact hend

end Producer

end TraceRing
