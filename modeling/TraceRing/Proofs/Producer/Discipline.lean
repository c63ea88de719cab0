import TraceRing.Clock.Ticked
import TraceRing.Proofs.Consumer.Courses
import TraceRing.Proofs.Producer.Openings

/-!
# Any order of calls

A `Link` is a producer together with what the consumer has of its core. Its steps are the calls of
the producer in any order, anything its clock may do, and the work of consumers at the lane. After
any run the link is `Guarded`: no packet that waits in the ring is disturbed, and ending a packet
faults if and only if the ring is full.

A run is disciplined (`isDisciplined`) if every packet is opened by a call that found a free slot,
or right after one. The slot then stays free until the packet is closed, for only this producer
takes slots: in a disciplined run no call faults on a full ring.
-/

namespace TraceRing

/-- A producer, and what the consumer has of its core. -/
structure Link (C E : Type) (g : Geometry) where
  producer : Producer (Clock C) E g
  lane : Lane g

namespace Link

variable {g : Geometry} {C E : Type} {bits : Nat} [Countdown C bits] [PacketEncoder E g]

/-! ## Steps -/

/-- A step of one of the two sides. -/
inductive Step (C E : Type) (g : Geometry) where
  | call (c : Producer.Call E g)
  /-- Something happens to the clock. -/
  | clock (work : Clock C → Clock C)
  | move (core : Core) (place : Nat) (verbose : Bool)
  | report (core : Core)
  /-- A new consumer starts with another sink. -/
  | attach (sink : Sink)

/-- A link of a new producer and an empty ring. -/
def new (grid : Grid) (core : Core) (clock : Clock C) (encoder : E) (timeout : UInt64)
    (sink : Sink) : Link C E g :=
  ⟨Producer.new grid core clock encoder timeout, Lane.new (Ring.empty g) sink⟩

/-- What a call of the producer answers. -/
def answer (k : Link C E g) (c : Producer.Call E g) : Except Fault Unit :=
  (k.producer.call k.lane.ring c).1

/-- The link after a step. -/
def next (k : Link C E g) : Step C E g → Link C E g
  | .call c =>
    let done := k.producer.call k.lane.ring c
    ⟨done.2.1, { k.lane with ring := done.2.2 }⟩
  | .clock work => { k with producer := { k.producer with clock := work k.producer.clock } }
  | .move core place verbose => { k with lane := (k.lane.move core place verbose).lane }
  | .report core => { k with lane := (k.lane.reportText core).2 }
  | .attach sink => { k with lane := Lane.new k.lane.ring sink }

/-- The packets that a step publishes. -/
def sentBy (k : Link C E g) : Step C E g → List (Packet g)
  | .call c => k.producer.sent k.lane.ring c
  | _ => []

/-- The link after a list of steps. -/
def after (k : Link C E g) (steps : List (Step C E g)) : Link C E g :=
  steps.foldl next k

/-! ## Whatever the order -/

section Feeds

variable {k : Link C E g} {sent : List (Packet g)} {taken : Nat}

/-- A step sends what its call publishes, and takes no packet back. -/
theorem feeds_next (h : k.producer.Feeds k.lane.ring 0 sent taken) (s : Step C E g) :
    ∃ taken', taken ≤ taken' ∧
      (k.next s).producer.Feeds (k.next s).lane.ring 0 (sent ++ k.sentBy s) taken' := by
  cases s with
  | call c => exact ⟨taken, Nat.le_refl _, h.call c⟩
  | clock work =>
    refine ⟨taken, Nat.le_refl _, ?_⟩
    simp only [sentBy, List.append_nil]
    exact h.congr rfl
  | move core place verbose =>
    obtain ⟨n, failed, htook⟩ := k.lane.exists_took_move core place verbose
    simp only [Link.next, sentBy, List.append_nil]
    exact ⟨taken + n, Nat.le_add_right .., htook.carries h.ring, h.index⟩
  | report core =>
    refine ⟨taken, Nat.le_refl _, ?_, ?_⟩
    · simpa [Link.next, sentBy] using h.ring
    · simpa [Link.next, sentBy] using h.index
  | attach sink =>
    refine ⟨taken, Nat.le_refl _, ?_⟩
    simpa only [sentBy, List.append_nil] using ⟨h.ring, h.index⟩

end Feeds

/-- The two sides agree on the packets sent so far, and a packet that was sent could be finished. -/
structure Sound (k : Link C E g) (sent : List (Packet g)) (taken : Nat) : Prop where
  feeds : k.producer.Feeds k.lane.ring 0 sent taken
  finishes : sent ≠ [] → PacketEncoder.Finishes E g

theorem sound_new (grid : Grid) (core : Core) (clock : Clock C) (encoder : E) (timeout : UInt64)
    (sink : Sink) : (new grid core clock encoder timeout sink : Link C E g).Sound [] 0 :=
  ⟨⟨Ring.Carries.empty g, rfl⟩, fun h => absurd rfl h⟩

variable [LawfulEncoder E g]

namespace Sound

variable {k : Link C E g} {sent : List (Packet g)} {taken : Nat}

/-- A step sends what its call publishes, and takes no packet back. -/
theorem next (h : k.Sound sent taken) (s : Step C E g) :
    ∃ taken', taken ≤ taken' ∧ (k.next s).Sound (sent ++ k.sentBy s) taken' := by
  obtain ⟨taken', hle, hfeeds⟩ := feeds_next h.feeds s
  refine ⟨taken', hle, hfeeds, fun hsent => ?_⟩
  -- whatever is sent for the first time shows that packets can be finished
  cases hnew : k.sentBy s with
  | nil =>
    rw [hnew, List.append_nil] at hsent
    exact h.finishes hsent
  | cons packet rest =>
    cases s with
    | call c =>
      have hcall : k.producer.sent k.lane.ring c = packet :: rest := hnew
      exact Producer.finishes_of_sent (by rw [hcall]; simp)
    | _ => cases hnew

theorem after (h : k.Sound sent taken) (steps : List (Step C E g)) :
    ∃ sent' taken', (k.after steps).Sound sent' taken' := by
  induction steps generalizing k sent taken with
  | nil => exact ⟨sent, taken, h⟩
  | cons s rest ih =>
    obtain ⟨taken', -, hnext⟩ := h.next s
    exact ih hnext

end Sound

/-- What holds of a link after any run. -/
structure Guarded (k : Link C E g) : Prop where
  backlog_le : k.lane.ring.backlog ≤ g.slots
  producerIndex : k.lane.ring.producerIndex = k.producer.index
  /-- A packet that waits in the ring is not changed. -/
  getSlot_next : ∀ (s : Step C E g), ∀ n < k.lane.ring.backlog,
    (k.next s).lane.ring.getSlot (k.lane.ring.consumerIndex + UInt32.ofNat n) =
      k.lane.ring.getSlot (k.lane.ring.consumerIndex + UInt32.ofNat n)
  /-- Ending a packet faults on a full ring, and on no other. -/
  full_iff : (∃ fault, (k.producer.endPacket k.lane.ring).1 = .error fault ∧
      fault.message = "close_packet on a full ring buffer") ↔
    k.producer.isOpen = true ∧ (∃ time, k.producer.now = .ok time) ∧
      k.lane.ring.backlog = g.slots
  /-- Such a fault leaves the ring and the index as they were. -/
  unchanged : (k.producer.endPacket k.lane.ring).1 = .error .endedOnFullRing →
    (k.producer.endPacket k.lane.ring).2.2 = k.lane.ring ∧
      (k.producer.endPacket k.lane.ring).2.1.index = k.producer.index

namespace Sound

variable {k : Link C E g} {sent : List (Packet g)} {taken : Nat}

omit [LawfulEncoder E g] in
/-- No step changes a packet that waits in the ring. -/
theorem getSlot_next (h : k.Sound sent taken) (s : Step C E g) {n : Nat}
    (hn : n < k.lane.ring.backlog) :
    (k.next s).lane.ring.getSlot (k.lane.ring.consumerIndex + UInt32.ofNat n) =
      k.lane.ring.getSlot (k.lane.ring.consumerIndex + UInt32.ofNat n) := by
  cases s with
  | call c =>
    have hnext := (h.feeds.call c).ring
    have hlt : taken + n < sent.length := by
      rw [h.feeds.ring.backlog_eq] at hn
      omega
    have hindex : k.lane.ring.consumerIndex + UInt32.ofNat n = UInt32.ofNat (0 + (taken + n)) := by
      rw [h.feeds.ring.consumerIndex, ← UInt32.ofNat_add, Nat.add_assoc]
    -- the packet is in the window before the call and after it, at the same index
    have hlt' : taken + n < (sent ++ k.producer.sent k.lane.ring c).length := by
      rw [List.length_append]
      omega
    rw [hindex, h.feeds.ring.getSlot _ hlt (Nat.le_add_right ..), Link.next]
    dsimp only
    rw [hnext.getSlot _ hlt' (Nat.le_add_right ..), List.getElem_append_left hlt]
  | clock work => rfl
  | move core place verbose => exact Ring.getSlot_congr (Lane.packets_move ..) _
  | report core => simp [Link.next]
  | attach sink => rfl

/-- Ending a packet faults on a full ring if a packet is open and the clock can be read. -/
theorem full_iff (h : k.Sound sent taken) :
    (k.producer.endPacket k.lane.ring).1 = .error .endedOnFullRing ↔
      k.producer.isOpen = true ∧ (∃ time, k.producer.now = .ok time) ∧
        k.lane.ring.backlog = g.slots := by
  have hle := h.feeds.ring.taken_le
  have hlen := h.feeds.ring.length_le
  have hslots := g.slots_pos
  rw [Producer.endPacket_full_iff, h.feeds.gap_lt_capacity_iff, h.feeds.ring.backlog_eq]
  constructor
  · rintro ⟨hopen, ⟨time, hnow, -⟩, hfull⟩
    exact ⟨hopen, ⟨time, hnow⟩, by omega⟩
  · rintro ⟨hopen, ⟨time, hnow⟩, hfull⟩
    -- a full ring was sent to, so that packets can be finished and only the missing slot is left to
    -- fault
    have hsent : sent ≠ [] := by
      rintro rfl
      rw [List.length_nil] at hfull
      omega
    exact ⟨hopen, ⟨time, hnow, h.finishes hsent _ _ _⟩, by omega⟩

theorem guarded (h : k.Sound sent taken) : k.Guarded where
  backlog_le := by
    have hlen := h.feeds.ring.length_le
    rw [h.feeds.ring.backlog_eq]
    omega
  producerIndex := h.feeds.index_eq.symm
  getSlot_next s n hn := h.getSlot_next s hn
  full_iff := by
    rw [← h.full_iff]
    constructor
    · rintro ⟨fault, hfault, hmessage⟩
      rw [hfault, Fault.message_eq_iff.mp hmessage]
    · exact fun hfull => ⟨.endedOnFullRing, hfull, rfl⟩
  unchanged hfull := (Producer.unchanged_of_endPacket_full hfull).symm

end Sound

/-! ## Discipline -/

/-- Whether a step is in order, if the last step of the producer did or did not find a free slot: a
packet is opened only by a call that looks, or after such a step. -/
def Step.isAllowed (found : Bool) (k : Link C E g) : Step C E g → Bool
  | .call .startPacket => found
  | .call c => !c.isBlind k.producer
  | _ => true

/-- Whether the last step of the producer found a free slot, after one more step. -/
def Step.finds (found : Bool) (k : Link C E g) : Step C E g → Bool
  | .call .isBlocked =>
    match (k.producer.isBlocked k.lane.ring.consumerIndex).1 with
    | .ok blocked => !blocked
    | .error _ => false
  | .call _ => false
  | _ => found

/-- Whether all steps are in order. -/
def isDisciplined : Bool → Link C E g → List (Step C E g) → Bool
  | _, _, [] => true
  | found, k, s :: rest => s.isAllowed found k && isDisciplined (s.finds found k) (k.next s) rest

/-- A slot is free. -/
def HasRoom (k : Link C E g) : Prop :=
  Ring.gap k.producer.index k.lane.ring.consumerIndex < Ring.capacity g

/-- An open packet has a free slot, and so has one that may be opened. -/
def Ready (found : Bool) (k : Link C E g) : Prop :=
  k.producer.isOpen = true ∨ found = true → k.HasRoom

section Ready

variable {k : Link C E g} {sent : List (Packet g)} {taken : Nat} {found : Bool}

omit [PacketEncoder E g] [LawfulEncoder E g] in
theorem hasRoom_of_isFull (h : k.producer.Feeds k.lane.ring 0 sent taken)
    (hfull : Ring.isFull g k.producer.index k.lane.ring.consumerIndex = false) : k.HasRoom :=
  h.gap_lt_capacity_iff.mpr (h.room_of_isFull hfull)

omit [LawfulEncoder E g] in
/-- The consumer takes no slot. -/
theorem hasRoom_move (h : k.producer.Feeds k.lane.ring 0 sent taken) (hroom : k.HasRoom)
    (core : Core) (place : Nat) (verbose : Bool) :
    (k.next (.move core place verbose)).HasRoom := by
  obtain ⟨n, failed, htook⟩ := k.lane.exists_took_move core place verbose
  have hfeeds : k.producer.Feeds (k.lane.move core place verbose).lane.ring 0 sent (taken + n) :=
    ⟨htook.carries h.ring, h.index⟩
  have hbefore := h.gap_lt_capacity_iff.mp hroom
  exact hfeeds.gap_lt_capacity_iff.mpr (by omega)

/-- A call after which a packet is open, or may be opened, leaves a slot free for it. -/
theorem Ready.call (hready : k.Ready found) (h : k.producer.Feeds k.lane.ring 0 sent taken)
    {c : Producer.Call E g}
    (hallowed : Step.isAllowed found k (.call c) = true) :
    (k.next (.call c)).Ready (Step.finds found k (.call c)) := by
  have hconsumer : (k.producer.call k.lane.ring c).2.2.consumerIndex = k.lane.ring.consumerIndex :=
    (h.call c).ring.consumerIndex.trans h.ring.consumerIndex.symm
  -- a call that does not publish leaves the free slots as they are
  have hkeep : (k.producer.call k.lane.ring c).2.1.index = k.producer.index → k.HasRoom →
      (k.next (.call c)).HasRoom := by
    intro hindex hroom
    simpa only [HasRoom, Link.next, hindex, hconsumer] using hroom
  rintro (hopen | hfound)
  -- an open packet: it was open before, its call found a slot, or the step before did
  · obtain ⟨hcause, hindex⟩ := Producer.isOpen_of_call hopen
    refine hkeep hindex ?_
    rcases hcause with hbefore | hlooked | hblind
    · exact hready (.inl hbefore)
    · exact hasRoom_of_isFull h hlooked
    · cases c with
      | startPacket => exact hready (.inr hallowed)
      | _ =>
        simp only [Step.isAllowed, hblind] at hallowed
        cases hallowed
  -- only a look that found a slot allows to open a packet blindly
  · cases c with
    | isBlocked =>
      refine hkeep (by simp [Producer.call]) (hasRoom_of_isFull h ?_)
      apply Producer.isFull_of_isBlocked
      simp only [Step.finds] at hfound
      split at hfound
      · next blocked hanswer =>
        cases blocked with
        | false => exact hanswer
        | true => cases hfound
      · cases hfound
    | _ => cases hfound

theorem Ready.next (hready : k.Ready found) (h : k.producer.Feeds k.lane.ring 0 sent taken)
    {s : Step C E g}
    (hallowed : s.isAllowed found k = true) : (k.next s).Ready (s.finds found k) := by
  cases s with
  | call c => exact hready.call h hallowed
  | clock work => exact hready
  | move core place verbose => exact fun hneed => hasRoom_move h (hready hneed) core place verbose
  | report core =>
    intro hneed
    simpa [HasRoom, Link.next] using hready hneed
  | attach sink => exact hready

/-- Along a disciplined run an open packet keeps its slot. -/
theorem Ready.after (hready : k.Ready found) (h : k.producer.Feeds k.lane.ring 0 sent taken)
    {steps : List (Step C E g)} (hdisciplined : isDisciplined found k steps = true) :
    ∃ found', (k.after steps).Ready found' := by
  induction steps generalizing k sent taken found with
  | nil => exact ⟨found, hready⟩
  | cons s rest ih =>
    obtain ⟨hallowed, hrest⟩ := Bool.and_eq_true_iff.mp hdisciplined
    obtain ⟨taken', -, hnext⟩ := feeds_next h s
    exact ih (hready.next h hallowed) hnext hrest

/-- With a free slot for the open packet, no call faults on a full ring. -/
theorem Ready.answer_ne_endedOnFullRing (hready : k.Ready found) (c : Producer.Call E g) :
    k.answer c ≠ .error .endedOnFullRing := by
  intro hfault
  obtain ⟨hopen, hfull⟩ := Producer.full_of_call hfault
  exact hfull (hready (.inl hopen))

end Ready

omit [LawfulEncoder E g] in
/-- All slots of a new ring are free, should the encoder start with an open packet. -/
theorem ready_new (grid : Grid) (core : Core) (clock : Clock C) (encoder : E) (timeout : UInt64)
    (sink : Sink) : (new grid core clock encoder timeout sink : Link C E g).Ready false := by
  have hfeeds := (sound_new (g := g) grid core clock encoder timeout sink).feeds
  exact fun _ => hfeeds.gap_lt_capacity_iff.mpr (Nat.lt_add_left 0 g.slots_pos)

/-! ## All runs -/

/-- The rule of the ring, with any lawful encoder. After any run the link is guarded, and in a
disciplined run no call faults on a full ring. -/
theorem guarded_after (grid : Grid) (core : Core) (clock : Clock C) (encoder : E)
    (timeout : UInt64) (sink : Sink) (steps : List (Step C E g)) :
    ((new grid core clock encoder timeout sink).after steps).Guarded ∧
      (isDisciplined false (new grid core clock encoder timeout sink) steps = true →
        ∀ c, ((new grid core clock encoder timeout sink).after steps).answer c
          ≠ .error .endedOnFullRing) := by
  have hsound : (new grid core clock encoder timeout sink : Link C E g).Sound [] 0 :=
    sound_new grid core clock encoder timeout sink
  obtain ⟨sent, taken, hafter⟩ := hsound.after steps
  refine ⟨hafter.guarded, fun hdisciplined c => ?_⟩
  have hready : (new grid core clock encoder timeout sink : Link C E g).Ready false :=
    ready_new grid core clock encoder timeout sink
  obtain ⟨found, hlast⟩ := hready.after hsound.feeds hdisciplined
  exact hlast.answer_ne_endedOnFullRing c

/-- Two slots are filled, a packet is dropped, and one more is opened in the slot that the consumer
gives back. -/
def refill : List (Step (TickedCounter 16) Encoder .pair) :=
  [.call .startSession, .call .endPacket, .call .tryPacket, .call .endPacket, .call .tryPacket,
    .move ⟨0, 0⟩ 0 false, .call .isBlocked, .call .startPacket]

/-- A new link with two slots of 32 bytes. -/
def twoSlots : Link (TickedCounter 16) Encoder .pair :=
  new .single ⟨0, 0⟩ (TickedClock.new 16) .new 0 .accepting

theorem guarded_after_refill :
    isDisciplined false twoSlots refill = true ∧ (twoSlots.after refill).Guarded ∧
      (twoSlots.after refill).producer.isOpen = true ∧
      (twoSlots.after refill).lane.ring.backlog = 1 ∧
      (twoSlots.after refill).answer .endPacket ≠ .error .endedOnFullRing := by
  have hdisciplined : isDisciplined false twoSlots refill = true := by decide +kernel
  obtain ⟨hguarded, hnever⟩ := guarded_after .single ⟨0, 0⟩
    (TickedClock.new 16) Encoder.new 0 .accepting refill
  exact ⟨hdisciplined, hguarded, by decide +kernel, by decide +kernel,
    hnever hdisciplined .endPacket⟩

end Link

end TraceRing
