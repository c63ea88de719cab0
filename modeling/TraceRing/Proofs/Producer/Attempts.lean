import TraceRing.Proofs.Producer.Headers
import TraceRing.Proofs.Producer.Takeover
import TraceRing.Proofs.Transport.Ownership

/-!
# Attempts

A caller that works packet by packet tries to start one, records events in it if that went well,
and ends it. If the header fits a packet, such a caller meets no fault (`Link.InOrder.effect`), and
each of its attempts comes to something: the packet is published, or it is dropped and counted, or
it is still open.

A caller may also ask for a slot itself, round after round. `Producer.rounds` are such rounds as
they stand; `Producer.burst`, which ends early when nothing can change any more, does the same
(`Producer.burst_eq_rounds`). If the first of them looks at the ring, they fill it up and leave the
producer waiting if there are more of them than free slots.
-/

namespace TraceRing

variable {g : Geometry} {C : Type} {bits : Nat} [Countdown C bits]

/-! ## Calls without faults -/

namespace Producer

section Fits

variable {p : Producer (Clock C) Encoder g} {place : Nat} {t : UInt64}

theorem startPacket_of_fits (hfits : 28 ≤ g.packetSize) (hplace : p.grid.index p.core = .ok place)
    (hnow : p.now = .ok t) :
    ∃ packet, p.startPacket = (.ok (),
      { p with encoder := { p.encoder with events := 0, isOpen := true }, packet := packet }) := by
  obtain ⟨packet, hstart, -⟩ := p.encoder.startPacket_of_fits t place hfits
  exact ⟨packet, by simp only [startPacket, PacketEncoder.startPacket, hnow, hplace, hstart]⟩

/-- An attempt to start a packet is refused, and then only counted, or it opens one. -/
theorem tryPacket_of_fits (hfits : 28 ≤ g.packetSize) (hplace : p.grid.index p.core = .ok place)
    (hnow : p.now = .ok t) (consumerIndex : UInt32) :
    ∃ waiting lastCheck,
      p.tryPacket consumerIndex = (.ok false,
          { p with waiting := waiting, lastCheck := lastCheck, dropped := p.dropped + 1 }) ∨
        ∃ packet, p.tryPacket consumerIndex = (.ok true,
          { p with
            waiting := waiting
            lastCheck := lastCheck
            encoder := { p.encoder with events := 0, isOpen := true }
            packet := packet }) := by
  have hasking := p.asking consumerIndex
  rw [tryPacket_eq]
  generalize p.isBlocked consumerIndex = asked at hasking
  cases hasking with
  | timeless herror => cases herror.symm.trans hnow
  | early => exact ⟨p.waiting, p.lastCheck, .inl rfl⟩
  | @full time => exact ⟨true, time, .inl rfl⟩
  | @free last =>
    obtain ⟨packet, hstart⟩ := startPacket_of_fits hfits hplace hnow
      (p := { p with waiting := false, lastCheck := last })
    exact ⟨false, last, .inr ⟨packet, by simp only [proceed, hstart]⟩⟩

/-- An open packet with a free slot is published, with its events in its header. -/
theorem endPacket_of_room {r : Ring g} (hfits : 28 ≤ g.packetSize) (hnow : p.now = .ok t)
    (hopen : p.encoder.isOpen = true)
    (hroom : Ring.gap p.index r.consumerIndex < Ring.capacity g) :
    ∃ packet : Packet g, packet.header.events = p.encoder.events.toNat ∧
      p.endPacket r = (.ok (),
        { p with
          encoder := { p.encoder with seq := p.encoder.seq + 1, isOpen := false }
          packet := packet }.publish r) := by
  have hend : (PacketEncoder.endPacket p.encoder t p.packet).1 = .ok () :=
    p.encoder.endPacket_of_fits t p.packet hfits
  refine ⟨(p.encoder.endPacket t p.packet).2.2, ?_, ?_⟩
  · rw [Encoder.header_endPacket _ _ _ hend]
  · rcases p.encoder.endPacket_cases t p.packet with ⟨-, hencoder, -⟩ | ⟨⟨fault, hfault, -⟩, -⟩
    · have hclosed : (PacketEncoder.endPacket p.encoder t p.packet).2.1 =
          { p.encoder with seq := p.encoder.seq + 1, isOpen := false } := hencoder
      simp only [endPacket, isOpen_eq, hopen, if_true, hnow, hend, hclosed, hroom]
      rfl
    · cases hfault.symm.trans hend

theorem closing_of_endPacket {p' : Producer (Clock C) Encoder g} {r r' : Ring g}
    (hopen : p.encoder.isOpen = true) (h : p.endPacket r = (.ok (), p', r')) :
    p.closing r = some p'.packet := by
  simp only [closing, h, isOpen_eq, hopen, if_true]

end Fits

section Rounds

variable {E : Type} [PacketEncoder E g]

/-- No call changes the core of a producer. -/
theorem home_call (p : Producer (Clock C) E g) (r : Ring g) (c : Call E g) :
    (p.call r c).2.1.grid = p.grid ∧ (p.call r c).2.1.core = p.core := by
  have hstart : p.startPacket.2.grid = p.grid ∧ p.startPacket.2.core = p.core := by
    simp only [startPacket]
    split <;> exact ⟨rfl, rfl⟩
  have htry : ∀ p : Producer (Clock C) E g,
      (p.tryPacket r.consumerIndex).2.grid = p.grid ∧
        (p.tryPacket r.consumerIndex).2.core = p.core := by
    intro p
    obtain ⟨encoder, packet, dropped, htry, -⟩ := p.tryPacket_snd r.consumerIndex
    rw [htry, isBlocked_snd]
    exact ⟨rfl, rfl⟩
  have hend : (p.endPacket r).2.1.grid = p.grid ∧ (p.endPacket r).2.1.core = p.core := by
    have hending := p.ending r
    generalize p.endPacket r = done at hending ⊢
    cases hending <;> exact ⟨rfl, rfl⟩
  cases c with
  | startSession =>
    cases htracing : p.tracing with
    | true => simp [call, startSession_eq, htracing]
    | false =>
      simp only [call]
      rw [startSession_of_idle htracing]
      exact htry p.blank
  | endSession =>
    exact endSession_keeps (motive := fun p' _ => p'.grid = p.grid ∧ p'.core = p.core) ⟨rfl, rfl⟩
      hend fun _ _ hkept => hkept
  | isBlocked =>
    simp only [call]
    rw [isBlocked_snd]
    exact ⟨rfl, rfl⟩
  | startPacket => exact hstart
  | endPacket => exact hend
  | tryPacket => exact htry p
  | _ => exact ⟨rfl, rfl⟩

/-! ## Rounds -/

/-- A round of a caller that asks for a slot itself: if one is free, a packet is started and ended.
Answers whether one was free. -/
def round (p : Producer (Clock C) E g) (r : Ring g) :
    Except Fault Bool × Producer (Clock C) E g × Ring g :=
  match p.isBlocked r.consumerIndex with
  | (.error fault, p) => (.error fault, p, r)
  | (.ok true, p) => (.ok false, p, r)
  | (.ok false, p) =>
    match p.startPacket with
    | (.error fault, p) => (.error fault, p, r)
    | (.ok (), p) =>
      match p.endPacket r with
      | (.error fault, p, r) => (.error fault, p, r)
      | (.ok (), p, r) => (.ok true, p, r)

/-- A number of rounds, up to the first that faults. Answers how often a slot was free. -/
def rounds :
    Nat → Producer (Clock C) E g → Ring g → Except Fault Nat × Producer (Clock C) E g × Ring g
  | 0, p, r => (.ok 0, p, r)
  | n + 1, p, r =>
    match p.round r with
    | (.error fault, p, r) => (.error fault, p, r)
    | (.ok sent, p, r) =>
      let later := rounds n p r
      (later.1.map (· + sent.toNat), later.2)

variable {p : Producer (Clock C) E g} {r : Ring g} {t : UInt64}

theorem map_add_zero (result : Except Fault Nat) : result.map (· + false.toNat) = result := by
  cases result <;> rfl

theorem round_of_blocked {p' : Producer (Clock C) E g}
    (h : p.isBlocked r.consumerIndex = (.ok true, p')) : p.round r = (.ok false, p', r) := by
  simp only [round, h]

/-- After a round that changed nothing, all rounds change nothing. -/
theorem rounds_of_still (h : p.round r = (.ok false, p, r)) (n : Nat) :
    rounds n p r = (.ok 0, p, r) := by
  induction n with
  | zero => rfl
  | succ n ih => simp only [rounds, h, ih, map_add_zero]

/-- A burst that ends early does what all its rounds would do. -/
theorem burst_eq_rounds (n : Nat) (p : Producer (Clock C) E g) (r : Ring g) :
    burst n p r = rounds n p r := by
  induction n generalizing p r with
  | zero => rfl
  | succ n ih =>
    have hlook := p.isBlocked_snd r.consumerIndex
    rcases hasked : p.isBlocked r.consumerIndex with ⟨result, p'⟩
    rw [hasked] at hlook
    cases result with
    | error fault => simp only [burst, rounds, round, hasked]
    | ok blocked =>
      cases blocked with
      | true =>
        have hround := round_of_blocked hasked
        simp only [burst, rounds, hasked, hround, map_add_zero]
        split
        -- the look left the producer as it was, and so does every further one
        · next hsame =>
          dsimp only at hlook
          rw [hsame.1, hsame.2] at hlook
          subst hlook
          exact (rounds_of_still hround n).symm
        · exact ih p' r
      | false =>
        simp only [burst, rounds, round, hasked]
        obtain ⟨result, opened⟩ := p'.startPacket
        cases result with
        | error fault => rfl
        | ok _ =>
          dsimp only
          obtain ⟨result, closed, r'⟩ := opened.endPacket r
          cases result with
          | error fault => rfl
          | ok _ => simp only [ih, Bool.toNat_true]

omit [PacketEncoder E g] in
/-- At a full ring a producer waits, be it since now or since before. -/
theorem isBlocked_of_full {consumerIndex : UInt32} (hnow : p.now = .ok t)
    (hfull : Ring.isFull g p.index consumerIndex = true) :
    ∃ p', p.isBlocked consumerIndex = (.ok true, p') ∧ p'.waiting = true ∧
      (p' = p ∨ p' = { p with waiting := true, lastCheck := t }) := by
  have hasking := p.asking consumerIndex
  generalize p.isBlocked consumerIndex = asked at hasking
  cases hasking with
  | timeless herror => cases herror.symm.trans hnow
  | early hwaiting hsame hearly => exact ⟨p, rfl, hwaiting, .inl rfl⟩
  | full hlooks hsame _ =>
    cases hnow.symm.trans hsame
    exact ⟨_, rfl, rfl, .inr rfl⟩
  | free hlooks hroom => exact absurd (hroom.symm.trans hfull) Bool.false_ne_true

/-- A round at a full ring leaves a producer that waits, and every further one changes nothing. -/
theorem round_of_full (hnow : p.now = .ok t)
    (hfull : Ring.isFull g p.index r.consumerIndex = true) :
    ∃ p', p.round r = (.ok false, p', r) ∧ p'.round r = (.ok false, p', r) ∧ p'.waiting = true := by
  obtain ⟨p', hblocked, hwaiting, rfl | rfl⟩ := isBlocked_of_full hnow hfull
  · exact ⟨p', round_of_blocked hblocked, round_of_blocked hblocked, hwaiting⟩
  · -- a look at the same time remembers nothing new
    obtain ⟨p', hagain, -, rfl | rfl⟩ :=
      isBlocked_of_full (p := { p with waiting := true, lastCheck := t }) hnow hfull
    · exact ⟨_, round_of_blocked hblocked, round_of_blocked hagain, hwaiting⟩
    · exact ⟨_, round_of_blocked hblocked, round_of_blocked hagain, hwaiting⟩

end Rounds

section Filling

variable {p : Producer (Clock C) Encoder g} {r : Ring g} {t : UInt64}

/-- A producer that is about to look at its ring, at which it can publish. -/
structure Primed (p : Producer (Clock C) Encoder g) (r : Ring g) (sent : List (Packet g))
    (taken : Nat) (t : UInt64) : Prop where
  feeds : p.Feeds r 0 sent taken
  place : ∃ place, p.grid.index p.core = .ok place
  closed : p.encoder.isOpen = false
  now : p.now = .ok t
  looks : p.looks = true

namespace Primed

variable {sent : List (Packet g)} {taken : Nat}

theorem isFull_iff (h : p.Primed r sent taken t) :
    Ring.isFull g p.index r.consumerIndex = true ↔ sent.length = taken + g.slots :=
  h.feeds.isFull_iff

/-- While a slot is free, a round publishes a packet, and the next one looks again. -/
theorem round_of_room (h : p.Primed r sent taken t) (hfits : 28 ≤ g.packetSize)
    (hroom : sent.length < taken + g.slots) :
    ∃ packet p' r', p.round r = (.ok true, p', r') ∧ p'.Primed r' (sent ++ [packet]) taken t := by
  have hfree : Ring.isFull g p.index r.consumerIndex = false := by
    rw [Bool.eq_false_iff, ne_eq, h.isFull_iff]
    exact Nat.ne_of_lt hroom
  obtain ⟨place, hplace⟩ := h.place
  have hasking := p.asking r.consumerIndex
  rcases hasked : p.isBlocked r.consumerIndex with ⟨result, p'⟩
  rw [hasked] at hasking
  cases hasking with
  | timeless herror => cases herror.symm.trans h.now
  | early hwaiting hnow hearly =>
    have hlooks := h.looks
    simp [Producer.looks_eq, hwaiting, hnow, hearly] at hlooks
  | full _ _ hfull => exact absurd (hfree.symm.trans hfull) Bool.false_ne_true
  | @free last =>
    let looked : Producer (Clock C) Encoder g := { p with waiting := false, lastCheck := last }
    obtain ⟨blank, hstart⟩ := startPacket_of_fits (p := looked) hfits hplace h.now
    let opened : Producer (Clock C) Encoder g :=
      { looked with encoder := { p.encoder with events := 0, isOpen := true }, packet := blank }
    have hopened : opened.Feeds r 0 sent taken := h.feeds.congr rfl
    obtain ⟨packet, -, hend⟩ := endPacket_of_room (p := opened) hfits h.now rfl
      (hopened.gap_lt_capacity_iff.mpr hroom)
    let ended : Producer (Clock C) Encoder g :=
      { opened with
        encoder := { opened.encoder with seq := opened.encoder.seq + 1, isOpen := false }
        packet := packet }
    have hended : ended.Feeds r 0 sent taken := h.feeds.congr rfl
    refine ⟨packet, (ended.publish r).1, (ended.publish r).2, ?_, ?_⟩
    · simp only [round, hasked]
      rw [hstart]
      dsimp only
      rw [hend]
    · exact ⟨hended.publish hroom, ⟨place, hplace⟩, rfl, h.now, rfl⟩

/-- Rounds fill up the ring, and leave the producer waiting if there are more of them than free
slots. -/
theorem rounds (h : p.Primed r sent taken t) (hfits : 28 ≤ g.packetSize) (n : Nat) :
    ∃ more p' r', p.rounds n r = (.ok more.length, p', r') ∧
      more.length = min n (taken + g.slots - sent.length) ∧ r'.Carries 0 (sent ++ more) taken ∧
      (taken + g.slots - sent.length < n → p'.waiting = true) := by
  induction n generalizing p r sent with
  | zero => exact ⟨[], p, r, rfl, by simp, by simpa using h.feeds.ring, fun hlt => nomatch hlt⟩
  | succ n ih =>
    have hlen := h.feeds.ring.length_le
    rcases Nat.lt_or_eq_of_le hlen with hroom | hfull
    · obtain ⟨packet, p', r', hround, hprimed⟩ := h.round_of_room hfits hroom
      obtain ⟨more, p'', r'', hrounds, hmore, hcarries, hwaits⟩ := ih hprimed
      rw [List.length_append, List.length_singleton] at hmore hwaits
      refine ⟨packet :: more, p'', r'', ?_, ?_, ?_, fun hlt => hwaits (by omega)⟩
      · simp only [Producer.rounds, hround, hrounds]
        rfl
      · rw [List.length_cons, hmore]
        omega
      · rwa [List.append_assoc] at hcarries
    · obtain ⟨p', hround, hstill, hwaiting⟩ := round_of_full h.now (h.isFull_iff.mpr hfull)
      refine ⟨[], p', r, ?_, ?_, by simpa using h.feeds.ring, fun _ => hwaiting⟩
      · simp only [Producer.rounds, hround, rounds_of_still hstill]
        rfl
      · rw [hfull, Nat.sub_self]
        simp

end Primed

end Filling

end Producer

namespace Link

/-! ## Acts -/

/-- What a caller that works packet by packet does, and what happens meanwhile. -/
inductive Act (C : Type) (g : Geometry) where
  | tryPacket
  /-- Some events are recorded, and something is done to the packet. -/
  | record (n : UInt32) (fill : Packet g → Packet g)
  | endPacket
  | clock (work : Clock C → Clock C)
  | move (core : Core) (place : Nat) (verbose : Bool)
  | report (core : Core)

namespace Act

def toStep : Act C g → Step C Encoder g
  | .tryPacket => .call .tryPacket
  | .record n fill => .call (.edit fun encoder packet => (encoder.addEvents n, fill packet))
  | .endPacket => .call .endPacket
  | .clock work => .clock work
  | .move core place verbose => .move core place verbose
  | .report core => .report core

def isAttempt : Act C g → Bool
  | .tryPacket => true
  | _ => false

/-- Whether an act is the caller's. -/
def isCall : Act C g → Bool
  | .tryPacket | .record .. | .endPacket => true
  | .clock _ | .move .. | .report _ => false

/-- Whether an act is in order: a packet is started only when none is open, and events are recorded
only when one is. -/
def isAllowed (k : Link C Encoder g) : Act C g → Bool
  | .tryPacket => !k.producer.encoder.isOpen
  | .record .. => k.producer.encoder.isOpen
  | _ => true

/-- Whether an attempt is refused, for want of a free slot. -/
def isRefused (k : Link C Encoder g) : Act C g → Bool
  | .tryPacket => (k.producer.tryPacket k.lane.ring.consumerIndex).1.toOption == some false
  | _ => false

theorem keepsSink_toStep (a : Act C g) : a.toStep.keepsSink = true := by
  cases a <;> rfl

/-- An act that is in order takes a slot only as a disciplined step does. -/
theorem isAllowed_toStep {k : Link C Encoder g} {a : Act C g} (h : a.isAllowed k = true) :
    a.toStep.isAllowed false k = true := by
  cases a with
  | record n fill =>
    have hopen : k.producer.isOpen = true := h
    simp [toStep, Step.isAllowed, Producer.Call.isBlind, hopen]
  | _ => rfl

theorem finds_toStep (k : Link C Encoder g) (a : Act C g) : a.toStep.finds false k = false := by
  cases a <;> rfl

end Act

/-- The link after some acts. -/
def did (k : Link C Encoder g) (acts : List (Act C g)) : Link C Encoder g :=
  k.after (acts.map Act.toStep)

/-- The packets published in some acts. -/
def output (k : Link C Encoder g) (acts : List (Act C g)) : List (Packet g) :=
  k.published (acts.map Act.toStep)

theorem did_cons (k : Link C Encoder g) (a : Act C g) (rest : List (Act C g)) :
    k.did (a :: rest) = (k.next a.toStep).did rest :=
  rfl

theorem output_cons (k : Link C Encoder g) (a : Act C g) (rest : List (Act C g)) :
    k.output (a :: rest) = k.sentBy a.toStep ++ (k.next a.toStep).output rest :=
  rfl

/-- Whether all acts are in order, and the clock can be read at each of them. -/
def isOrderly : Link C Encoder g → List (Act C g) → Bool
  | _, [] => true
  | k, a :: rest => a.isAllowed k && k.producer.now.isOk && isOrderly (k.next a.toStep) rest

/-- The number of attempts that are refused. -/
def refusals : Link C Encoder g → List (Act C g) → Nat
  | _, [] => 0
  | k, a :: rest => (a.isRefused k).toNat + refusals (k.next a.toStep) rest

/-- A link in which acts in order meet no fault: the two sides agree on the packets sent, an open
packet has a free slot, and the core has a place. -/
structure InOrder (k : Link C Encoder g) : Prop where
  feeds : ∃ sent taken, k.producer.Feeds k.lane.ring 0 sent taken
  ready : k.Ready false
  place : ∃ place, k.producer.grid.index k.producer.core = .ok place

theorem home_next (k : Link C Encoder g) (s : Step C Encoder g) :
    (k.next s).producer.grid = k.producer.grid ∧ (k.next s).producer.core = k.producer.core := by
  cases s with
  | call c => exact k.producer.home_call k.lane.ring c
  | _ => exact ⟨rfl, rfl⟩

theorem home_after (k : Link C Encoder g) (steps : List (Step C Encoder g)) :
    (k.after steps).producer.grid = k.producer.grid ∧
      (k.after steps).producer.core = k.producer.core := by
  induction steps generalizing k with
  | nil => exact ⟨rfl, rfl⟩
  | cons s rest ih =>
    obtain ⟨hgrid, hcore⟩ := k.home_next s
    rw [← hgrid, ← hcore]
    exact ih (k.next s)

section Run

variable {k : Link C Encoder g} {a : Act C g} {acts : List (Act C g)}

/-- A disciplined step that does not itself look for a slot. -/
theorem InOrder.step (h : k.InOrder) {s : Step C Encoder g} (hallowed : s.isAllowed false k = true)
    (hfinds : s.finds false k = false) : (k.next s).InOrder where
  feeds := by
    obtain ⟨sent, taken, hfeeds⟩ := h.feeds
    obtain ⟨taken', -, hnext⟩ := feeds_next hfeeds s
    exact ⟨_, taken', hnext⟩
  ready := by
    obtain ⟨sent, taken, hfeeds⟩ := h.feeds
    have hready := h.ready.next hfeeds hallowed
    rwa [hfinds] at hready
  place := by
    obtain ⟨hgrid, hcore⟩ := k.home_next s
    rw [hgrid, hcore]
    exact h.place

theorem InOrder.next (h : k.InOrder) (hallowed : a.isAllowed k = true) :
    (k.next a.toStep).InOrder :=
  h.step (Act.isAllowed_toStep hallowed) (Act.finds_toStep k a)

/-- What an act in order does: the link after it, and the packets it publishes. -/
inductive Effect (k : Link C Encoder g) : Act C g → Link C Encoder g → List (Packet g) → Prop where
  /-- No slot is free, and the packet is dropped. -/
  | refused {waiting : Bool} {lastCheck : UInt64}
      (answer : (k.producer.tryPacket k.lane.ring.consumerIndex).1 = .ok false) :
      Effect k .tryPacket
        { k with
          producer :=
            { k.producer with
              waiting := waiting
              lastCheck := lastCheck
              dropped := k.producer.dropped + 1 } } []
  | started {waiting : Bool} {lastCheck : UInt64} {packet : Packet g}
      (answer : (k.producer.tryPacket k.lane.ring.consumerIndex).1 = .ok true) :
      Effect k .tryPacket
        { k with
          producer :=
            { k.producer with
              waiting := waiting
              lastCheck := lastCheck
              encoder := { k.producer.encoder with events := 0, isOpen := true }
              packet := packet } } []
  | recorded (n : UInt32) (fill : Packet g → Packet g) :
      Effect k (.record n fill)
        { k with
          producer :=
            { k.producer with
              encoder := k.producer.encoder.addEvents n
              packet := fill k.producer.packet } } []
  /-- There is no packet to be ended. -/
  | idle (closed : k.producer.encoder.isOpen = false) : Effect k .endPacket k []
  | published {packet : Packet g} {ring : Ring g} (opened : k.producer.encoder.isOpen = true)
      (events : packet.header.events = k.producer.encoder.events.toNat) :
      Effect k .endPacket
        ⟨{ k.producer with
            encoder :=
              { k.producer.encoder with seq := k.producer.encoder.seq + 1, isOpen := false }
            packet := packet
            index := k.producer.index + 1 },
          { k.lane with ring := ring }⟩ [packet]
  /-- The clock goes on, or the consumer does its work. -/
  | elsewhere {a : Act C g} (clock : Clock C) (lane : Lane g) (other : a.isCall = false) :
      Effect k a ⟨{ k.producer with clock := clock }, lane⟩ []

/-- An act in order meets no fault. -/
theorem InOrder.effect (h : k.InOrder) (hfits : 28 ≤ g.packetSize) {t : UInt64}
    (hnow : k.producer.now = .ok t) (hallowed : a.isAllowed k = true) :
    Effect k a (k.next a.toStep) (k.sentBy a.toStep) := by
  obtain ⟨place, hplace⟩ := h.place
  cases a with
  | tryPacket =>
    simp only [Act.toStep, Link.next, Producer.call, sentBy, Producer.sent]
    obtain ⟨waiting, lastCheck, hrefused | ⟨packet, hstarted⟩⟩ :=
      Producer.tryPacket_of_fits hfits hplace hnow k.lane.ring.consumerIndex
    · rw [hrefused]
      exact .refused (by rw [hrefused])
    · rw [hstarted]
      exact .started (by rw [hstarted])
  | record n fill => exact .recorded n fill
  | endPacket =>
    simp only [Act.toStep, Link.next, Producer.call, sentBy, Producer.sent]
    cases hopen : k.producer.encoder.isOpen with
    | false =>
      -- without an open packet there is nothing to end
      have hidle : k.producer.endPacket k.lane.ring = (.ok (), k.producer, k.lane.ring) := by
        simp [Producer.endPacket, Producer.isOpen_eq, hopen]
      rw [Producer.closing, hidle, Producer.isOpen_eq, hopen]
      exact .idle hopen
    | true =>
      -- a free slot was found when the packet was started, and only this producer takes slots
      obtain ⟨packet, hevents, hend⟩ :=
        Producer.endPacket_of_room hfits hnow hopen (h.ready (.inl hopen))
      rw [Producer.closing_of_endPacket hopen hend, hend]
      exact .published hopen hevents
  | clock work => exact .elsewhere _ _ rfl
  | move core place verbose => exact .elsewhere _ _ rfl
  | report core => exact .elsewhere _ _ rfl

/-- An attempt starts a packet or is refused, and a packet that is started stays open until it is
published. -/
theorem Effect.balance {k' : Link C Encoder g} {packets : List (Packet g)}
    (h : Effect k a k' packets) (hallowed : a.isAllowed k = true) :
    a.isAttempt.toNat + k.producer.encoder.isOpen.toNat =
        packets.length + (a.isRefused k).toNat + k'.producer.encoder.isOpen.toNat ∧
      k'.producer.dropped = k.producer.dropped + UInt32.ofNat (a.isRefused k).toNat := by
  cases h with
  | refused answer => simp [Act.isAttempt, Act.isRefused, answer, Except.toOption, Nat.add_comm]
  | started answer =>
    have hclosed : k.producer.encoder.isOpen = false := by simpa [Act.isAllowed] using hallowed
    simp [Act.isAttempt, Act.isRefused, answer, Except.toOption, hclosed]
  | recorded n fill => simp [Act.isAttempt, Act.isRefused, Encoder.addEvents]
  | idle closed => simp [Act.isAttempt, Act.isRefused]
  | published opened events => simp [Act.isAttempt, Act.isRefused, opened]
  | elsewhere clock lane other =>
    have hnone : a.isAttempt = false ∧ a.isRefused k = false := by
      cases a with
      | tryPacket => cases other
      | _ => exact ⟨rfl, rfl⟩
    simp [hnone]

/-- A run in order meets no fault, and its attempts come out even. -/
theorem InOrder.balance (h : k.InOrder) (hfits : 28 ≤ g.packetSize)
    (horderly : k.isOrderly acts = true) :
    (k.did acts).InOrder ∧
      acts.countP Act.isAttempt + k.producer.encoder.isOpen.toNat =
        (k.output acts).length + k.refusals acts + (k.did acts).producer.encoder.isOpen.toNat ∧
      (k.did acts).producer.dropped = k.producer.dropped + UInt32.ofNat (k.refusals acts) := by
  induction acts generalizing k with
  | nil =>
    refine ⟨h, ?_, ?_⟩
    · simp [output, published, along, refusals, did, after]
    · simp [did, after, refusals]
  | cons a rest ih =>
    simp only [isOrderly, Bool.and_eq_true] at horderly
    obtain ⟨⟨hallowed, hnow⟩, hrest⟩ := horderly
    obtain ⟨t, hnow⟩ := Producer.exists_now hnow
    obtain ⟨hfirst, hcount⟩ := (h.effect hfits hnow hallowed).balance hallowed
    obtain ⟨hlast, hlater, hdropped⟩ := ih (h.next hallowed) hrest
    have hattempts : (a :: rest).countP Act.isAttempt =
        a.isAttempt.toNat + rest.countP Act.isAttempt := by
      cases hattempt : a.isAttempt <;> simp [hattempt, Nat.add_comm]
    rw [did_cons, output_cons, hattempts, List.length_append, refusals]
    refine ⟨hlast, by omega, ?_⟩
    rw [hdropped, hcount, UInt32.ofNat_add, UInt32.add_assoc]

end Run

/-! ## All runs -/

/-- The call that an act makes, if it makes one, does not fault. -/
def Act.Succeeds (k : Link C Encoder g) (a : Act C g) : Prop :=
  match a.toStep with
  | .call c => k.answer c = .ok ()
  | _ => True

theorem InOrder.succeeds {k : Link C Encoder g} (h : k.InOrder) (hfits : 28 ≤ g.packetSize)
    {t : UInt64} (hnow : k.producer.now = .ok t) (a : Act C g) : a.Succeeds k := by
  obtain ⟨place, hplace⟩ := h.place
  cases a with
  | tryPacket =>
    simp only [Act.Succeeds, Act.toStep, answer, Producer.call]
    obtain ⟨waiting, lastCheck, hrefused | ⟨packet, hstarted⟩⟩ :=
      Producer.tryPacket_of_fits hfits hplace hnow k.lane.ring.consumerIndex
    · rw [hrefused]
      rfl
    · rw [hstarted]
      rfl
  | endPacket => exact h.ready.endPacket (Encoder.finishes_iff.mpr hfits) hnow
  | record n fill => rfl
  | _ => trivial

/-- Every attempt to publish a packet comes to something. -/
structure Accounts (k : Link C Encoder g) (acts : List (Act C g)) : Prop where
  /-- Its packet is published, dropped, or still open. -/
  attempts : acts.countP Act.isAttempt =
    (k.output acts).length + k.refusals acts + (k.did acts).producer.encoder.isOpen.toNat
  /-- A packet that is dropped is counted. -/
  dropped : (k.did acts).producer.dropped = UInt32.ofNat (k.refusals acts)
  /-- A packet that is published is counted. -/
  index : (k.did acts).producer.index = UInt32.ofNat (k.output acts).length
  shared : (k.did acts).lane.ring.producerIndex = (k.did acts).producer.index
  succeeds : (∃ t, (k.did acts).producer.now = .ok t) → ∀ a : Act C g, a.Succeeds (k.did acts)
  /-- An attempt that is refused leaves the ring, the packet and the encoder as they were. -/
  refused : Act.isRefused (k.did acts) .tryPacket = true →
    ((k.did acts).next (.call .tryPacket)).lane = (k.did acts).lane ∧
    ((k.did acts).next (.call .tryPacket)).producer.packet = (k.did acts).producer.packet ∧
    ((k.did acts).next (.call .tryPacket)).producer.encoder = (k.did acts).producer.encoder

/-- Some rounds, and so a burst of as many, publish a packet for each free slot, as far as they go,
and leave the producer waiting if there are more of them. -/
def FillsUp (k : Link C Encoder g) (n : Nat) : Prop :=
  ∃ more p' r', Producer.rounds n k.producer k.lane.ring = (.ok more.length, p', r') ∧
    Producer.burst n k.producer k.lane.ring = (.ok more.length, p', r') ∧
    more.length = min n (g.slots - k.lane.ring.backlog) ∧
    r'.pending = k.lane.ring.pending ++ more ∧
    (g.slots - k.lane.ring.backlog < n → p'.waiting = true)

theorem unchanged_of_isRefused {k : Link C Encoder g} (h : Act.isRefused k .tryPacket = true) :
    (k.next (.call .tryPacket)).lane = k.lane ∧
      (k.next (.call .tryPacket)).producer.packet = k.producer.packet ∧
      (k.next (.call .tryPacket)).producer.encoder = k.producer.encoder := by
  have hanswer : (k.producer.tryPacket k.lane.ring.consumerIndex).1 = .ok false := by
    simp only [Act.isRefused] at h
    cases hresult : (k.producer.tryPacket k.lane.ring.consumerIndex).1 with
    | error fault => simp [hresult, Except.toOption] at h
    | ok started => simpa [hresult, Except.toOption] using h
  obtain ⟨waiting, lastCheck, hproducer⟩ := Producer.tryPacket_of_refused hanswer
  simp only [Link.next, Producer.call, hproducer, and_self]

section New

variable (grid : Grid) (core : Core) (clock : Clock C) (timeout : UInt64) (sink : Sink)
  {place : Nat}

theorem inOrder_new (hplace : grid.index core = .ok place) :
    (new grid core clock Encoder.new timeout sink : Link C Encoder g).InOrder where
  feeds := ⟨[], 0, (sound_new grid core clock Encoder.new timeout sink).feeds⟩
  ready := ready_new grid core clock Encoder.new timeout sink
  place := ⟨place, hplace⟩

/-- If packets have room for a header, every attempt from a new ring on is accounted for; and in
every state that can be reached without a packet open, rounds of looking, starting and ending fill
up the ring, unless the producer waits and its timeout is not over yet. -/
theorem attempts_accounted (hplace : grid.index core = .ok place) (hfits : 28 ≤ g.packetSize) :
    (∀ acts : List (Act C g), (new grid core clock Encoder.new timeout sink).isOrderly acts = true →
      (new grid core clock Encoder.new timeout sink).Accounts acts) ∧
    ∀ (steps : List (Step C Encoder g)) (n : Nat) (t : UInt64),
      let k := (new grid core clock Encoder.new timeout sink).after steps
      k.producer.encoder.isOpen = false → k.producer.now = .ok t →
      (k.producer.waiting = true → k.producer.timeout ≤ t - k.producer.lastCheck) →
      k.FillsUp n := by
  have hnew : (new grid core clock Encoder.new timeout sink : Link C Encoder g).InOrder :=
    inOrder_new grid core clock timeout sink hplace
  have hsound : (new grid core clock Encoder.new timeout sink : Link C Encoder g).Sound [] 0 :=
    sound_new grid core clock Encoder.new timeout sink
  refine ⟨fun acts horderly => ?_, ?_⟩
  · obtain ⟨hlast, hattempts, hdropped⟩ := hnew.balance hfits horderly
    have hkeeps : ∀ s ∈ acts.map Act.toStep, s.keepsSink = true := by
      intro s hs
      obtain ⟨a, -, rfl⟩ := List.mem_map.mp hs
      exact a.keepsSink_toStep
    -- the balance does not tell the index, which counts all that the ring carried
    obtain ⟨hfeeds, -⟩ := feeds_moved hsound.feeds hkeeps
    refine ⟨hattempts, ?_, ?_, hfeeds.index_eq.symm, ?_, unchanged_of_isRefused⟩
    · rw [hdropped]
      exact UInt32.zero_add _
    · rw [did, hfeeds.index, Nat.zero_add]
      rfl
    · rintro ⟨t, hnow⟩ a
      exact hlast.succeeds hfits hnow a
  · intro steps n t k hclosed hnow htimeout
    -- these steps need not be in order: only what both sides agree on is kept along them
    obtain ⟨sent, taken, hafter⟩ := hsound.after steps
    obtain ⟨hgrid, hcore⟩ := home_after (new grid core clock Encoder.new timeout sink) steps
    have hprimed : k.producer.Primed k.lane.ring sent taken t := by
      refine ⟨hafter.feeds, ⟨place, ?_⟩, hclosed, hnow, ?_⟩
      · rw [hgrid, hcore]
        exact hplace
      · cases hwaiting : k.producer.waiting with
        | false => simp [Producer.looks_eq, hwaiting]
        | true => simpa [Producer.looks_eq, hwaiting, hnow] using htimeout hwaiting
    obtain ⟨more, p', r', hrounds, hmore, hcarries, hwaits⟩ := hprimed.rounds hfits n
    have hfree : taken + g.slots - sent.length = g.slots - k.lane.ring.backlog := by
      have hle := hafter.feeds.ring.taken_le
      rw [hafter.feeds.ring.backlog_eq]
      omega
    have hburst : Producer.burst n k.producer k.lane.ring = (.ok more.length, p', r') :=
      (Producer.burst_eq_rounds n k.producer k.lane.ring).trans hrounds
    rw [hfree] at hmore hwaits
    refine ⟨more, p', r', hrounds, hburst, hmore, ?_, hwaits⟩
    rw [hcarries.pending_eq, hafter.feeds.ring.pending_eq,
      List.drop_append_of_le_length hafter.feeds.ring.taken_le]

end New

/-- Two packets fill the ring, a third is dropped, and one is moved. -/
def dropOne : List (Act (TickedCounter 16) .pair) :=
  [.tryPacket, .record 3 id, .endPacket, .tryPacket, .endPacket, .tryPacket, .move ⟨0, 0⟩ 0 false]

/-- The ring has room for one of three further packets. -/
theorem attempts_accounted_of_dropOne :
    Grid.single.index ⟨0, 0⟩ = .ok 0 ∧ 28 ≤ Geometry.pair.packetSize ∧
    twoSlots.isOrderly dropOne = true ∧ twoSlots.Accounts dropOne ∧
    (twoSlots.output dropOne).length = 2 ∧ twoSlots.refusals dropOne = 1 ∧
    (twoSlots.did dropOne).producer.encoder.isOpen = false ∧
    (twoSlots.did dropOne).producer.waiting = true ∧
    (∃ t, (twoSlots.did dropOne).producer.now = .ok t ∧
      (twoSlots.did dropOne).producer.timeout ≤ t - (twoSlots.did dropOne).producer.lastCheck) ∧
    (twoSlots.did dropOne).lane.ring.backlog = 1 ∧ (twoSlots.did dropOne).FillsUp 3 := by
  have hplace : Grid.single.index ⟨0, 0⟩ = .ok 0 := rfl
  have hfits : 28 ≤ Geometry.pair.packetSize := by decide
  have horderly : twoSlots.isOrderly dropOne = true := by decide +kernel
  have hclosed : (twoSlots.did dropOne).producer.encoder.isOpen = false := by decide +kernel
  have hnone : (twoSlots.did dropOne).producer.timeout = 0 := by decide +kernel
  obtain ⟨t, hnow⟩ : ∃ t, (twoSlots.did dropOne).producer.now = .ok t :=
    Producer.exists_now (by decide +kernel)
  have htimeout : (twoSlots.did dropOne).producer.timeout ≤
      t - (twoSlots.did dropOne).producer.lastCheck := by
    rw [hnone]
    exact UInt64.zero_le
  obtain ⟨haccounts, hfills⟩ :=
    attempts_accounted .single ⟨0, 0⟩ (TickedClock.new 16) 0 .accepting hplace hfits
  exact ⟨hplace, hfits, horderly, haccounts dropOne horderly, by decide +kernel, by decide +kernel,
    hclosed, by decide +kernel, ⟨t, hnow, htimeout⟩, by decide +kernel,
    hfills (dropOne.map Act.toStep) 3 t hclosed hnow fun _ => htimeout⟩

/-! ## Packets without room for a header -/

end Link

theorem Geometry.slotBits_narrow_le : 2 ≤ 30 := by
  decide

/-- Four slots of 16 bytes, which hold the start of a header and not its end. -/
def Geometry.narrow : Geometry :=
  ⟨2, 4, slotBits_narrow_le⟩

namespace Link

/-- A new link of such packets. -/
def narrow : Link (TickedCounter 16) Encoder .narrow :=
  new .single ⟨0, 0⟩ (TickedClock.new 16) .new 0 .accepting

/-- A packet with one event. -/
def oneEvent : List (Act (TickedCounter 16) .narrow) :=
  [.tryPacket, .record 1 id, .endPacket]

/-- A packet without room for its header is started and cannot be ended, and a round faults. -/
theorem attempt_lost_of_narrow :
    narrow.isOrderly oneEvent = true ∧
    (narrow.did [.tryPacket, .record 1 id]).answer .endPacket = .error (.rangeEndsBeyond 24 16) ∧
    oneEvent.countP Act.isAttempt ≠ (narrow.output oneEvent).length + narrow.refusals oneEvent ∧
    (Producer.rounds 1 narrow.producer narrow.lane.ring).1 = .error (.rangeEndsBeyond 24 16) := by
  refine ⟨by decide +kernel, by rfl, by decide +kernel, by rfl⟩

end Link

end TraceRing
