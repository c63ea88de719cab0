import TraceRing.Proofs.Clock.Monotone
import TraceRing.Proofs.Producer.Headers
import TraceRing.Proofs.Producer.Openings
import TraceRing.Proofs.Transport.Queues

/-!
# Sessions

A producer that keeps to one session (`Session.allows`) opens packets by looking calls alone,
does not touch them otherwise, and resets its clock only before the first of them. What such a
producer sends is a `Chronicle`: the packets are numbered from 0, and each was closed before the
next one was opened.

The chronicle reaches the sink as it is, so that the bytes there can be cut into packets again and
the headers in them tell the same (`Transport.received_isStream`).
-/

namespace TraceRing

open Clock (Counts Fits)

variable {bits : Nat} {g : Geometry}

/-! ## Chronicles -/

/-- The packets of a core, numbered from 0 and in the order of their times, all closed by `now`. -/
structure Chronicle (place now : Nat) (sent : List (Packet g)) : Prop where
  seq : ∀ k (h : k < sent.length), sent[k].header.seq = k % 2 ^ 32
  core : ∀ packet ∈ sent, packet.header.core = place % 2 ^ 32
  opened_le_closed : ∀ packet ∈ sent, packet.header.opened ≤ packet.header.closed
  closed_le_opened : ∀ k (h : k + 1 < sent.length),
    sent[k].header.closed ≤ sent[k + 1].header.opened
  past : ∀ packet ∈ sent, packet.header.closed ≤ now

/-- A packet that was opened to come next. -/
structure Draft (place now : Nat) (sent : List (Packet g)) (packet : Packet g) : Prop where
  seq : packet.header.seq = sent.length % 2 ^ 32
  core : packet.header.core = place % 2 ^ 32
  after : ∀ earlier ∈ sent, earlier.header.closed ≤ packet.header.opened
  opened_le : packet.header.opened ≤ now

section Chronicle

variable {place now later : Nat} {sent : List (Packet g)} {packet : Packet g}

theorem Chronicle.nil (place now : Nat) : Chronicle place now ([] : List (Packet g)) where
  seq k h := absurd h (Nat.not_lt_zero k)
  core _ h := absurd h List.not_mem_nil
  opened_le_closed _ h := absurd h List.not_mem_nil
  closed_le_opened _ h := absurd h (Nat.not_lt_zero _)
  past _ h := absurd h List.not_mem_nil

theorem Chronicle.mono (h : Chronicle place now sent) (hle : now ≤ later) :
    Chronicle place later sent :=
  { h with past := fun packet hmem => Nat.le_trans (h.past packet hmem) hle }

theorem Draft.mono (h : Draft place now sent packet) (hle : now ≤ later) :
    Draft place later sent packet :=
  { h with opened_le := Nat.le_trans h.opened_le hle }

/-- The next packet is closed. -/
theorem Chronicle.close (h : Chronicle place now sent) (hdraft : Draft place now sent packet)
    {closed : Packet g} {events : Nat}
    (hclosed : closed.header = { packet.header with closed := now, events := events }) :
    Chronicle place now (sent ++ [closed]) where
  seq k hk := by
    rcases Nat.lt_or_ge k sent.length with hold | hnew
    · rw [List.getElem_append_left hold]
      exact h.seq k hold
    · have hlast : k = sent.length := by
        rw [List.length_append, List.length_singleton] at hk
        omega
      rw [List.getElem_append_right hnew]
      simp only [List.getElem_singleton, hclosed, hlast]
      exact hdraft.seq
  core q hq := by
    rcases List.mem_append.mp hq with hold | hnew
    · exact h.core q hold
    · rw [List.mem_singleton.mp hnew, hclosed]
      exact hdraft.core
  opened_le_closed q hq := by
    rcases List.mem_append.mp hq with hold | hnew
    · exact h.opened_le_closed q hold
    · rw [List.mem_singleton.mp hnew, hclosed]
      exact hdraft.opened_le
  closed_le_opened k hk := by
    rw [List.length_append, List.length_singleton] at hk
    rw [List.getElem_append_left (by omega)]
    rcases Nat.lt_or_ge (k + 1) sent.length with hold | hnew
    · rw [List.getElem_append_left hold]
      exact h.closed_le_opened k hold
    · rw [List.getElem_append_right hnew, List.getElem_singleton, hclosed]
      exact hdraft.after _ (List.getElem_mem _)
  past q hq := by
    rcases List.mem_append.mp hq with hold | hnew
    · exact h.past q hold
    · rw [List.mem_singleton.mp hnew]
      exact Nat.le_of_eq (congrArg Header.closed hclosed)

end Chronicle

/-! ## Sessions of a producer -/

/-- What counts of a producer that keeps to one session. -/
structure Session where
  /-- Whether a packet was opened. -/
  begun : Bool
  /-- The wraparounds since the clock was reset. -/
  turns : Nat

namespace Session

def new : Session :=
  ⟨false, 0⟩

/-- Whether an operation of a producer keeps to the session: packets are opened only by calls that
look at the ring, and not touched otherwise; the clock is reset only before the first of them, and
its counter is not written. -/
def allows (x : Session) (p : Producer (TickedClock bits) Encoder g) : Transport.ProducerOp → Bool
  | .clock .reset | .restart => !x.begun
  | .clock op => op.isGentle
  | .startSession => p.tracing || !x.begun
  | .startPacket | .burst _ | .poke _ _ => false
  | _ => true

def next (x : Session) (p : Producer (TickedClock bits) Encoder g) : Transport.ProducerOp → Session
  | .clock .reset | .restart => ⟨x.begun, 0⟩
  | .clock op => ⟨x.begun, x.turns + TickedClock.turns p.clock op⟩
  | .startSession => if p.tracing then x else ⟨true, 0⟩
  | .tryPacket | .publishEvent => ⟨true, x.turns⟩
  | _ => x

/-- A producer in its session, and the packets it sent. -/
structure Holds (x : Session) (p : Producer (TickedClock bits) Encoder g) (place : Nat)
    (sent : List (Packet g)) (taken : Nat) : Prop where
  index : p.grid.index p.core = .ok place
  counts : p.clock.Counts x.turns
  seq : p.encoder.seq = UInt32.ofNat sent.length
  chronicle : Chronicle place (p.clock.time x.turns) sent
  fresh : x.begun = false → sent = [] ∧ p.encoder.isOpen = false
  draft : p.encoder.isOpen = true → Draft place (p.clock.time x.turns) sent p.packet
  /-- There is a slot for the open packet. -/
  room : p.encoder.isOpen = true → sent.length < taken + g.slots

namespace Holds

variable {x : Session} {p : Producer (TickedClock bits) Encoder g} {r : Ring g} {place taken : Nat}
  {sent : List (Packet g)}

/-- Of the producer only the clock, the packet and what its header is made of count. -/
theorem congr {p' : Producer (TickedClock bits) Encoder g} (h : x.Holds p place sent taken)
    (hsame : (p'.grid, p'.core, p'.clock, p'.encoder.seq, p'.encoder.isOpen, p'.packet) =
      (p.grid, p.core, p.clock, p.encoder.seq, p.encoder.isOpen, p.packet)) :
    x.Holds p' place sent taken := by
  simp only [Prod.mk.injEq] at hsame
  obtain ⟨hgrid, hcore, hclock, hseq, hopen, hpacket⟩ := hsame
  refine ⟨?_, ?_, ?_, ?_, ?_, ?_, ?_⟩
  · rw [hgrid, hcore]
    exact h.index
  · rw [hclock]
    exact h.counts
  · rw [hseq]
    exact h.seq
  · rw [hclock]
    exact h.chronicle
  · rw [hopen]
    exact h.fresh
  · rw [hopen, hclock, hpacket]
    exact h.draft
  · rw [hopen]
    exact h.room

theorem begin (h : x.Holds p place sent taken) : Holds ⟨true, x.turns⟩ p place sent taken :=
  { h with fresh := nofun }

/-- The clock goes on. -/
theorem clock (h : x.Holds p place sent taken) {op : TickedClock.Op} (hop : op.isGentle = true) :
    Holds ⟨x.begun, x.turns + TickedClock.turns p.clock op⟩
      { p with clock := (TickedClock.run p.clock op).2 } place sent taken where
  index := h.index
  counts := TickedClock.counts_run h.counts hop
  seq := h.seq
  chronicle := h.chronicle.mono (TickedClock.time_le_run p.clock x.turns hop)
  fresh := h.fresh
  draft hopen := (h.draft hopen).mono (TickedClock.time_le_run p.clock x.turns hop)
  room := h.room

/-- Before the first packet any time will do. -/
theorem reset (h : x.Holds p place sent taken) (hbegun : x.begun = false) :
    Holds ⟨x.begun, 0⟩ { p with clock := p.clock.reset } place sent taken where
  index := h.index
  counts := p.clock.counts_reset
  seq := h.seq
  chronicle := (h.fresh hbegun).1 ▸ Chronicle.nil place _
  fresh := h.fresh
  draft hopen := absurd hopen (by simp [(h.fresh hbegun).2])
  room := h.room

theorem isBlocked (h : x.Holds p place sent taken) (consumerIndex : UInt32) :
    x.Holds (p.isBlocked consumerIndex).2 place sent taken := by
  rw [Producer.isBlocked_snd]
  exact h.congr rfl

/-- The clock stops, which is no turn of it. -/
theorem halt (h : x.Holds p place sent taken) : x.Holds p.halt place sent taken := by
  have hstop := h.clock (rfl : TickedClock.Op.stop.isGentle = true)
  exact hstop.congr rfl

/-- A packet is opened. -/
theorem startPacket (h : x.Holds p place sent taken) (hbits : bits ≤ 64) (hfits : Fits bits x.turns)
    (hsize : 28 ≤ g.packetSize) (hroom : sent.length < taken + g.slots) :
    Holds ⟨true, x.turns⟩ p.startPacket.2 place sent taken := by
  obtain ⟨t, hnow, ht⟩ := h.counts.now hbits hfits
  have hnow' : p.now = .ok t := hnow
  obtain ⟨packet, hstart, hseq, hcore, hopened⟩ := p.encoder.startPacket_of_fits t place hsize
  have hdraft : Draft place (p.clock.time x.turns) sent packet := by
    refine ⟨?_, hcore, ?_, ?_⟩
    · rw [hseq, h.seq, UInt32.toNat_ofNat']
    · intro earlier hmem
      rw [hopened, ht]
      exact h.chronicle.past earlier hmem
    · exact Nat.le_of_eq (hopened.trans ht)
  simp only [Producer.startPacket, PacketEncoder.startPacket, hnow', h.index, hstart]
  exact ⟨h.index, h.counts, h.seq, h.chronicle, by rintro ⟨⟩, fun _ => hdraft, fun _ => hroom⟩

/-- A packet is opened if a slot is free for it. -/
theorem tryPacket (h : x.Holds p place sent taken) (hfeeds : p.Feeds r 0 sent taken)
    (hbits : bits ≤ 64) (hfits : Fits bits x.turns) (hsize : 28 ≤ g.packetSize) :
    Holds ⟨true, x.turns⟩ (p.tryPacket r.consumerIndex).2 place sent taken := by
  have hlook := h.isBlocked r.consumerIndex
  have hroom := fun hfree => hfeeds.room_of_isBlocked hfree
  rw [Producer.tryPacket_eq]
  generalize p.isBlocked r.consumerIndex = looked at hlook hroom ⊢
  obtain ⟨result, p'⟩ := looked
  cases result with
  | error fault => exact hlook.begin
  | ok blocked =>
    cases blocked with
    | true =>
      -- the packet is dropped, and an open one stays open
      exact hlook.begin.congr rfl
    | false =>
      have hstart := hlook.startPacket hbits hfits hsize (hroom rfl)
      dsimp only [Producer.proceed] at hstart ⊢
      split
      · next heq =>
        rw [heq] at hstart
        exact hstart
      · next heq =>
        rw [heq] at hstart
        exact hstart

/-- The session starts. -/
theorem startSession (h : x.Holds p place sent taken) (hfeeds : p.Feeds r 0 sent taken)
    (hbits : bits ≤ 64) (hsize : 28 ≤ g.packetSize)
    (hallowed : (p.tracing || !x.begun) = true) :
    (if p.tracing then x else ⟨true, 0⟩ : Session).Holds (p.startSession r.consumerIndex).2 place
      sent taken := by
  cases htracing : p.tracing with
  | true => simpa [Producer.startSession_eq, htracing] using h
  | false =>
    have hbegun : x.begun = false := by simpa [htracing] using hallowed
    have hclosed := (h.fresh hbegun).2
    have hreset := h.reset hbegun
    have hblank : Holds ⟨x.begun, 0⟩ p.blank place sent taken :=
      ⟨hreset.index, hreset.counts, hreset.seq, hreset.chronicle, hreset.fresh,
        fun hopen => absurd (hclosed.symm.trans hopen) Bool.false_ne_true, hreset.room⟩
    have hfits : Fits bits 0 := ⟨by decide, by simp⟩
    have htry := hblank.tryPacket (hfeeds.congr rfl) hbits hfits hsize
    rw [Producer.startSession_of_idle htracing]
    exact htry.congr rfl

/-- The open packet is closed with the time, and published. -/
theorem endPacket (h : x.Holds p place sent taken) (hfeeds : p.Feeds r 0 sent taken)
    (hbits : bits ≤ 64) (hfits : Fits bits x.turns) (hsize : 28 ≤ g.packetSize) :
    x.Holds (p.endPacket r).2.1 place (sent ++ (p.closing r).toList) taken := by
  obtain ⟨t, hnow, ht⟩ := h.counts.now hbits hfits
  have hending := p.ending r
  unfold Producer.closing
  generalize p.endPacket r = done at hending ⊢
  cases hending with
  | idle hclosed => simpa [hclosed] using h
  | timeless hopen herror => cases herror.symm.trans hnow
  | cramped hopen hsame herror =>
    cases herror.symm.trans (p.encoder.endPacket_of_fits _ p.packet hsize)
  | full hopen hsame hend hfull =>
    exact absurd (hfeeds.gap_lt_capacity_iff.mpr (h.room hopen)) hfull
  | published hopen hsame hend hroom =>
    cases hsame.symm.trans hnow
    have hencoder : (p.sealed t).encoder =
        { p.encoder with seq := p.encoder.seq + 1, isOpen := false } := by
      rcases p.encoder.endPacket_cases t p.packet with ⟨-, hclosed, -⟩ | ⟨⟨fault, hfault, -⟩, -⟩
      · exact hclosed
      · cases hfault.symm.trans hend
    have hheader := p.encoder.header_endPacket t p.packet hend
    rw [ht] at hheader
    have hclosed : (p.sealed t).encoder.isOpen = false := by rw [hencoder]
    simp only [hopen, if_true]
    change x.Holds ((p.sealed t).publish r).1 place (sent ++ [(p.sealed t).packet]) taken
    refine ⟨h.index, h.counts, ?_, ?_, ?_, ?_, ?_⟩
    · change (p.sealed t).encoder.seq = _
      rw [hencoder, h.seq, List.length_append, UInt32.ofNat_add]
      rfl
    · exact h.chronicle.close (h.draft hopen) hheader
    · intro hbegun
      cases (h.fresh hbegun).2.symm.trans hopen
    · intro hstill
      exact absurd (hclosed.symm.trans hstill) Bool.false_ne_true
    · intro hstill
      exact absurd (hclosed.symm.trans hstill) Bool.false_ne_true

theorem endSession (h : x.Holds p place sent taken) (hfeeds : p.Feeds r 0 sent taken)
    (hbits : bits ≤ 64) (hfits : Fits bits x.turns) (hsize : 28 ≤ g.packetSize) :
    x.Holds (p.endSession r).2.1 place (sent ++ (p.lastClosing r).toList) taken := by
  have hending := p.sessionEnding r
  have hend := h.endPacket hfeeds hbits hfits hsize
  unfold Producer.lastClosing
  generalize p.endSession r = done at hending ⊢
  cases hending with
  | idle htracing => simpa [htracing] using h
  | quiet htracing hnone => simpa [htracing, hnone] using h.halt
  | stuck htracing hlast heq =>
    simp only [htracing, hlast, Bool.true_and, if_true]
    rw [heq] at hend
    exact hend
  | ended htracing hlast heq =>
    simp only [htracing, hlast, Bool.true_and, if_true]
    rw [heq] at hend
    exact hend.halt

theorem publishEvent (h : x.Holds p place sent taken) (hfeeds : p.Feeds r 0 sent taken)
    (hbits : bits ≤ 64) (hfits : Fits bits x.turns) (hsize : 28 ≤ g.packetSize) :
    Holds ⟨true, x.turns⟩ (p.publishEvent r).2.1 place (sent ++ p.eventSent r) taken := by
  have hindex := p.index_tryPacket r.consumerIndex
  have htry := h.tryPacket hfeeds hbits hfits hsize
  simp only [Producer.publishEvent, Producer.eventSent]
  generalize p.tryPacket r.consumerIndex = tried at hindex htry ⊢
  obtain ⟨result, p'⟩ := tried
  cases result with
  | error fault => simpa using htry
  | ok started =>
    cases started with
    | false => simpa using htry
    | true =>
      have hevent : Holds ⟨true, x.turns⟩ (p'.addEvents 1) place sent taken := htry.congr rfl
      have hend := hevent.endPacket (hfeeds.congr hindex) hbits hfits hsize
      dsimp only
      split
      · next heq =>
        rw [heq] at hend
        exact hend
      · next heq =>
        rw [heq] at hend
        exact hend

/-- Every operation that keeps to the session goes on with the chronicle. -/
theorem run (h : x.Holds p place sent taken) (hfeeds : p.Feeds r 0 sent taken)
    (hbits : bits ≤ 64) (hfits : Fits bits x.turns) (hsize : 28 ≤ g.packetSize)
    {op : Transport.ProducerOp} (hallowed : x.allows p op = true) :
    (x.next p op).Holds (Transport.runProducer p r op).2.1 place
      (sent ++ Transport.sentIn p r op) taken := by
  have hquiet : Transport.sentIn p r op = [] →
      (x.next p op).Holds (Transport.runProducer p r op).2.1 place sent taken →
      (x.next p op).Holds (Transport.runProducer p r op).2.1 place
        (sent ++ Transport.sentIn p r op) taken := by
    intro hnone hkeep
    rw [hnone, List.append_nil]
    exact hkeep
  cases op with
  | clock op =>
    refine hquiet rfl ?_
    cases op with
    | reset => exact h.reset (by simpa [allows] using hallowed)
    | _ => exact h.clock hallowed
  | startSession =>
    refine hquiet rfl ?_
    rw [Transport.runProducer_of_call p r rfl]
    exact h.startSession hfeeds hbits hsize hallowed
  | endSession =>
    rw [Transport.runProducer_of_call p r rfl]
    exact h.endSession hfeeds hbits hfits hsize
  | restart =>
    have hreset := h.reset (by simpa [allows] using hallowed)
    exact hquiet rfl (hreset.congr rfl)
  | endPacket => exact h.endPacket hfeeds hbits hfits hsize
  | tryPacket => exact hquiet rfl (h.tryPacket hfeeds hbits hfits hsize)
  | publishEvent => exact h.publishEvent hfeeds hbits hfits hsize
  | isBlocked => exact hquiet rfl (h.isBlocked r.consumerIndex)
  | startPacket => cases hallowed
  | burst n => cases hallowed
  | poke offset bytes => cases hallowed
  | now => exact hquiet rfl h
  | writeText message => exact hquiet rfl h
  | say level pieces => exact hquiet rfl h
  | addEvents n => exact hquiet rfl (h.congr rfl)
  | setTimeout timeout => exact hquiet rfl (h.congr rfl)

end Holds

/-- Packets that the consumer takes make more room. -/
theorem Holds.taken_mono {x : Session} {p : Producer (TickedClock bits) Encoder g}
    {place taken taken' : Nat} {sent : List (Packet g)} (h : x.Holds p place sent taken)
    (hle : taken ≤ taken') : x.Holds p place sent taken' :=
  { h with room := fun hopen => Nat.lt_of_lt_of_le (h.room hopen) (Nat.add_le_add_right hle _) }

end Session

/-! ## Sessions in a transport -/

namespace Transport

variable {t : Transport bits g} {i : Nat}

/-- What a step does to a producer that has a ring: it is an operation of the producer, or it works
on the packet past it, or it leaves the producer alone. -/
theorem station_next (hapart : t.Apart) {st : Station bits g} (hst : t.stations[i]? = some st)
    {l : Lane g} (hl : t.lanes[st.place]? = some l) (s : Step g) :
    ∃ p, (t.next s).stations[i]? = some { st with producer := p } ∧
      ((∃ op, s = .producer i op ∧ p = (runProducer st.producer l.ring op).2.1 ∧
          t.sentBy st.place s = sentIn st.producer l.ring op) ∨
        (∃ work, s = .edit i work) ∨
        ((∀ op, s ≠ .producer i op) ∧ p = st.producer ∧ t.sentBy st.place s = [])) := by
  have hlt := (List.getElem?_eq_some_iff.mp hst).1
  cases s with
  | producer j op =>
    by_cases hij : j = i
    · subst hij
      refine ⟨(runProducer st.producer l.ring op).2.1, ?_, .inl ⟨op, rfl, rfl, ?_⟩⟩
      · simp only [next, step, stepProducer, hst, hl, setRing, List.getElem?_set_self hlt]
      · simp only [sentBy, hst, hl, if_true]
    · refine ⟨st.producer, ?_, .inr (.inr ⟨?_, rfl, ?_⟩)⟩
      · simp only [next, step, stepProducer]
        split
        · exact hst
        · split
          · exact hst
          · simp only [setRing, List.getElem?_set_ne hij]
            exact hst
      · rintro op' ⟨⟩
        exact hij rfl
      · cases hother : t.stations[j]? with
        | none => simp only [sentBy, hother]
        | some other =>
          -- no other producer is at this ring
          exact sentBy_of_ne hother (fun hplace => hij (hapart.eq_of_place hother hst hplace)) op
  | edit j work =>
    by_cases hij : j = i
    · subst hij
      refine ⟨(st.producer.edit work), ?_, .inr (.inl ⟨work, rfl⟩)⟩
      simp only [next, step, stepEdit, hst, List.getElem?_set_self hlt]
    · refine ⟨st.producer, ?_, .inr (.inr ⟨by rintro _ ⟨⟩, rfl, rfl⟩)⟩
      simp only [next, step, stepEdit]
      split
      · exact hst
      · simp only [List.getElem?_set_ne hij]
        exact hst
  | ring q op =>
    refine ⟨st.producer, ?_, .inr (.inr ⟨by rintro _ ⟨⟩, rfl, rfl⟩)⟩
    simp only [next, step]
    split <;> exact hst
  | setShutdown requested => exact ⟨st.producer, hst, .inr (.inr ⟨by rintro _ ⟨⟩, rfl, rfl⟩)⟩
  | consumer op =>
    refine ⟨st.producer, ?_, .inr (.inr ⟨by rintro _ ⟨⟩, rfl, rfl⟩)⟩
    simp only [next, step]
    split
    · exact hst
    · rw [stations_runConsumer]
      exact hst

/-- Whether a step keeps the producer `i` to its session. -/
def admits (t : Transport bits g) (i : Nat) (x : Session) : Step g → Bool
  | .producer j op =>
    match t.stations[i]? with
    | some st => j != i || x.allows st.producer op
    | none => true
  | .edit j _ => j != i
  | _ => true

/-- The session of the producer `i` after a step. -/
def session (t : Transport bits g) (i : Nat) (x : Session) : Step g → Session
  | .producer j op =>
    match t.stations[i]? with
    | some st => if j = i then x.next st.producer op else x
    | none => x
  | _ => x

/-- Whether the producer `i` keeps to one session along a run, and its clock is wide enough. -/
def keepsSession (i : Nat) : Session → Transport bits g → List (Step g) → Bool
  | _, _, [] => true
  | x, t, s :: rest =>
    decide (Fits bits x.turns) && t.admits i x s &&
      keepsSession i (t.session i x s) (t.next s) rest

section Run

variable {x : Session} {p : Producer (TickedClock bits) Encoder g} {place : Nat}
  {sent : Nat → List (Packet g)} {taken : Nat → Nat}

/-- A step goes on with the chronicle. -/
theorem holds_next (h : t.Sound sent taken) (hst : t.stations[i]? = some ⟨p, place⟩)
    (hplace : place < t.lanes.length) (hx : x.Holds p place (sent place) (taken place))
    (hbits : bits ≤ 64) (hfits : Fits bits x.turns) (hsize : 28 ≤ g.packetSize) {s : Step g}
    (hadmits : t.admits i x s = true) :
    ∃ p', (t.next s).stations[i]? = some ⟨p', place⟩ ∧
      (t.session i x s).Holds p' place (sent place ++ t.sentBy place s)
        (taken place + (t.tour s).moved.count place) := by
  have hl : t.lanes[place]? = some t.lanes[place] := List.getElem?_eq_getElem hplace
  obtain ⟨p', hst', hcases⟩ := station_next h.apart hst hl s
  refine ⟨p', hst', ?_⟩
  rcases hcases with ⟨op, rfl, rfl, hsent⟩ | ⟨work, rfl⟩ | ⟨hother, rfl, hsent⟩
  · have hallowed : x.allows p op = true := by simpa [admits, hst] using hadmits
    have hrun := hx.run (h.feeds hst hl) hbits hfits hsize hallowed
    have hsession : t.session i x (.producer i op) = x.next p op := by simp [session, hst]
    rw [hsession, hsent]
    exact hrun.taken_mono (Nat.le_add_right ..)
  · simp [admits] at hadmits
  · have hsession : t.session i x s = x := by
      cases s with
      | producer j op =>
        have hij : j ≠ i := by
          rintro rfl
          exact hother op rfl
        simp [session, hst, hij]
      | _ => rfl
    rw [hsession, hsent, List.append_nil]
    exact hx.taken_mono (Nat.le_add_right ..)

/-- A run that keeps to the session goes on with the chronicle. -/
theorem chronicle_after (h : t.Sound sent taken) (hst : t.stations[i]? = some ⟨p, place⟩)
    (hplace : place < t.lanes.length) (hx : x.Holds p place (sent place) (taken place))
    (hbits : bits ≤ 64) (hsize : 28 ≤ g.packetSize) {steps : List (Step g)}
    (hproper : ∀ s ∈ steps, s.isProper = true) (hkeeps : keepsSession i x t steps = true) :
    ∃ now, Chronicle place now (sent place ++ t.sent place steps) := by
  induction steps generalizing t x p sent taken with
  | nil => exact ⟨_, by simpa [Transport.sent, along] using hx.chronicle⟩
  | cons s rest ih =>
    obtain ⟨hs, hrest⟩ := List.forall_mem_cons.mp hproper
    simp only [keepsSession, Bool.and_eq_true, decide_eq_true_eq] at hkeeps
    obtain ⟨⟨hfits, hadmits⟩, hkeeps⟩ := hkeeps
    obtain ⟨p', hst', hnext⟩ := holds_next h hst hplace hx hbits hfits hsize hadmits
    obtain ⟨now, hafter⟩ :=
      ih (h.step hs) hst' (by rwa [length_lanes_next]) hnext hrest hkeeps
    refine ⟨now, ?_⟩
    simpa [Transport.sent, along] using hafter

end Run

end Transport

/-! ## Streams -/

/-- The bytes of the `k`-th packet in a stream of packets of `size` bytes. -/
def chunk (size k : Nat) (bytes : Bytes) : Bytes :=
  (bytes.drop (k * size)).take size

theorem chunk_stream (packets : List (Packet g)) {k : Nat} (hk : k < packets.length) :
    chunk g.packetSize k (stream packets) = packets[k].toList :=
  take_drop_stream packets hk

/-- The bytes are whole packets of one core, numbered from 0, each closed before the next one was
opened. The words for the number and the core have 32 bits. -/
structure IsStream (size place : Nat) (bytes : Bytes) : Prop where
  whole : size ∣ bytes.length
  seq : ∀ k, (k + 1) * size ≤ bytes.length →
    (Header.decode (chunk size k bytes)).seq = k % 2 ^ 32
  core : ∀ k, (k + 1) * size ≤ bytes.length →
    (Header.decode (chunk size k bytes)).core = place % 2 ^ 32
  opened_le_closed : ∀ k, (k + 1) * size ≤ bytes.length →
    (Header.decode (chunk size k bytes)).opened ≤ (Header.decode (chunk size k bytes)).closed
  closed_le_opened : ∀ k, (k + 2) * size ≤ bytes.length →
    (Header.decode (chunk size k bytes)).closed ≤
      (Header.decode (chunk size (k + 1) bytes)).opened

/-- The bytes of a chronicle tell what the chronicle tells. -/
theorem Chronicle.isStream {place now : Nat} {sent : List (Packet g)}
    (h : Chronicle place now sent) : IsStream g.packetSize place (stream sent) := by
  have hlt : ∀ k n, (k + n) * g.packetSize ≤ (stream sent).length → k + n ≤ sent.length := by
    intro k n hle
    rw [length_stream] at hle
    exact Nat.le_of_mul_le_mul_right hle g.packetSize_pos
  have hheader : ∀ k (hk : k < sent.length),
      Header.decode (chunk g.packetSize k (stream sent)) = sent[k].header := by
    intro k hk
    rw [chunk_stream sent hk]
    rfl
  refine ⟨?_, ?_, ?_, ?_, ?_⟩
  · rw [length_stream]
    exact Nat.dvd_mul_left ..
  · intro k hle
    rw [hheader k (hlt k 1 hle)]
    exact h.seq k _
  · intro k hle
    rw [hheader k (hlt k 1 hle)]
    exact h.core _ (List.getElem_mem _)
  · intro k hle
    rw [hheader k (hlt k 1 hle)]
    exact h.opened_le_closed _ (List.getElem_mem _)
  · intro k hle
    rw [hheader k (Nat.lt_of_succ_lt (hlt k 2 hle)), hheader (k + 1) (hlt k 2 hle)]
    exact h.closed_le_opened k _

/-- The first packets of a chronicle are one. -/
theorem Chronicle.take {place now : Nat} {sent : List (Packet g)} (h : Chronicle place now sent)
    (n : Nat) : Chronicle place now (sent.take n) where
  seq k hk := by
    rw [List.getElem_take]
    exact h.seq k _
  core packet hmem := h.core packet (List.mem_of_mem_take hmem)
  opened_le_closed packet hmem := h.opened_le_closed packet (List.mem_of_mem_take hmem)
  closed_le_opened k hk := by
    rw [List.getElem_take, List.getElem_take]
    exact h.closed_le_opened k _
  past packet hmem := h.past packet (List.mem_of_mem_take hmem)

namespace Transport

/-! ## All runs -/

section Build

variable {grid : Grid} {rings : Nat} {sinks : List Sink} {producers : List (Core × UInt64)}
  {verbose shutdown : Bool} {t : Transport bits g}

/-- A new producer is at the ring of its core, and nothing of a session has happened to it. -/
theorem holds_of_newStation {core : Core} {timeout : UInt64} {st : Station bits g}
    (h : newStation bits g grid rings core timeout = .ok st) :
    st.place < rings ∧ grid.index st.producer.core = .ok st.place ∧
      Session.new.Holds st.producer st.place [] 0 := by
  simp only [newStation] at h
  split at h
  · cases h
  · next place hindex =>
    split at h
    · next hlt =>
      cases h
      refine ⟨hlt, hindex, hindex, rfl, rfl, .nil _ _, fun _ => ⟨rfl, rfl⟩, ?_, ?_⟩
      · intro hopen
        cases hopen
      · intro hopen
        cases hopen
    · cases h

theorem holds_of_build (h : build bits g grid rings sinks producers verbose shutdown = .ok t)
    {i : Nat} {st : Station bits g} (hst : t.stations[i]? = some st) :
    st.place < t.lanes.length ∧ grid.index st.producer.core = .ok st.place ∧
      Session.new.Holds st.producer st.place [] 0 := by
  obtain ⟨hstations, hlanes⟩ := parts_of_build h
  obtain ⟨p, -, hp⟩ := exists_of_mem_mapM hstations (List.mem_of_getElem? hst)
  obtain ⟨hlt, hindex, hholds⟩ := holds_of_newStation hp
  have hrings := (Consumer.eq_of_attach hlanes).1
  rw [List.length_replicate] at hrings
  rw [Consumer.length_of_attach hlanes, ← hrings]
  exact ⟨hlt, hindex, hholds⟩

/-- The law of streams. Take a producer that keeps to one session on packets with room for their
header, and whatever the other parties do. As long as no write to the sink of its core fails, the
sink gets whole packets, one for each that was taken from the ring: numbered without a gap, marked
with the core, and in the order of their times, however many others were dropped. -/
theorem received_isStream
    (hbuild : build bits g grid rings sinks producers verbose shutdown = .ok t) (hapart : t.Apart)
    (hbits : bits ≤ 64) (hsize : 28 ≤ g.packetSize) {steps : List (Step g)}
    (hproper : ∀ s ∈ steps, s.isProper = true) {i : Nat} {st : Station bits g}
    (hst : t.stations[i]? = some st) (hkeeps : keepsSession i .new t steps = true)
    (hclean : st.place ∉ t.failures steps) :
    grid.index st.producer.core = .ok st.place ∧
      ∃ l sink bytes, (t.after steps).lanes[st.place]? = some l ∧ sinks[st.place]? = some sink ∧
        l.sink.received = sink.received ++ bytes ∧
        bytes.length = l.consumed * g.packetSize ∧ IsStream g.packetSize st.place bytes := by
  obtain ⟨hplace, hindex, hholds⟩ := holds_of_build hbuild hst
  have hsound := Sound.ofBuild hbuild hapart
  obtain ⟨now, hchronicle⟩ :=
    chronicle_after hsound hst hplace hholds hbits hsize hproper hkeeps
  rw [List.nil_append] at hchronicle
  have hlt : st.place < (t.after steps).lanes.length := by rwa [length_lanes_after]
  have hl : (t.after steps).lanes[st.place]? = some (t.after steps).lanes[st.place] :=
    List.getElem?_eq_getElem hlt
  generalize (t.after steps).lanes[st.place] = l at hl
  obtain ⟨before, hbefore, hconsumed, hpassage⟩ := hsound.passage_after hproper hl
  obtain ⟨sink, hsink, rfl⟩ := lane_of_build hbuild hbefore
  obtain ⟨none, hreceived, hnone, -⟩ := (hpassage hclean).received
  have htaken := ((hsound.after hproper).carries st.place l hl).taken_le
  refine ⟨hindex, l, sink, stream ((t.sent st.place steps).take (t.taken st.place steps)), hl,
    hsink, ?_, ?_, (hchronicle.take _).isStream⟩
  · simpa [Lane.new, hnone rfl] using hreceived
  · simp only [List.nil_append, Nat.zero_add] at htaken
    rw [length_stream, List.length_take_of_le htaken, hconsumed]
    simp [Lane.new]

end Build

/-- A session with two underflows: two packets fill the ring, one is dropped, and one is opened
twice before it is closed. -/
def interrupted : List (Step .pair) :=
  [.producer 0 (.clock (.tick 5)), .producer 0 .startSession, .producer 0 (.clock (.advance 70000)),
    .producer 0 .endPacket, .producer 0 .publishEvent, .producer 0 .publishEvent, .consumer .sweep,
    .producer 0 .tryPacket, .producer 0 (.clock (.advance 70000)), .producer 0 .tryPacket,
    .producer 0 (.addEvents 1), .consumer .sweep, .producer 0 .endSession, .consumer .sweep]

theorem received_isStream_of_interrupted :
    build 16 .pair twoSlots.grid 1 [.accepting] [(⟨0, 0⟩, 0)] false false = .ok twoSlots ∧
    twoSlots.Apart ∧ 16 ≤ 64 ∧ 28 ≤ Geometry.pair.packetSize ∧
    (∀ s ∈ interrupted, s.isProper = true) ∧
    keepsSession 0 .new twoSlots interrupted = true ∧ 0 ∉ twoSlots.failures interrupted ∧
    ∃ l, (twoSlots.after interrupted).lanes[0]? = some l ∧ l.consumed = 3 ∧
      l.sink.received.length = 96 ∧ IsStream 32 0 l.sink.received := by
  have hbuild : build 16 .pair twoSlots.grid 1 [.accepting] [(⟨0, 0⟩, 0)] false false
      = .ok twoSlots := rfl
  have hapart : twoSlots.Apart := by simp [Apart, twoSlots]
  have hproper : ∀ s ∈ interrupted, s.isProper = true := by simp [interrupted, Step.isProper]
  have hkeeps : keepsSession 0 .new twoSlots interrupted = true := by decide +kernel
  have hclean : 0 ∉ twoSlots.failures interrupted := by decide +kernel
  have hthree : (twoSlots.after interrupted).lanes.map Lane.consumed = [3] := by decide +kernel
  obtain ⟨-, l, sink, bytes, hl, hsink, hreceived, hlength, hstream⟩ :=
    received_isStream hbuild hapart (by decide) (by decide) hproper (i := 0) rfl hkeeps hclean
  obtain rfl : Sink.accepting = sink := Option.some.inj hsink
  obtain rfl : l.sink.received = bytes := hreceived
  have hconsumed : l.consumed = 3 := by
    have hfirst := congrArg (·[0]?) hthree
    simpa [hl] using hfirst
  rw [hconsumed] at hlength
  exact ⟨hbuild, hapart, by decide, by decide, hproper, hkeeps, hclean, l, hl, hconsumed, hlength,
    hstream⟩

end Transport

end TraceRing
