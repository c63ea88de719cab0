import TraceRing.Proofs.Producer.Attempts

/-!
# Recorded events

Between the start of a session and its end a caller works packet by packet. The events it records
are counted in the header of the packet that is open then, and every packet that is started is
published in the end: by the caller, or at the end of the session if it holds events. So the
headers of all packets that were published tell how many events were recorded
(`Link.events_published`), however many packets were dropped and whatever the consumer took
meanwhile.
-/

namespace TraceRing

variable {g : Geometry} {C : Type} {bits : Nat} [Countdown C bits]

/-- The events that some packets tell of. -/
def eventsIn (packets : List (Packet g)) : Nat :=
  (packets.map fun packet => packet.header.events).sum

@[simp] theorem eventsIn_nil : eventsIn ([] : List (Packet g)) = 0 :=
  rfl

@[simp] theorem eventsIn_append (ps qs : List (Packet g)) :
    eventsIn (ps ++ qs) = eventsIn ps + eventsIn qs := by
  simp [eventsIn]

/-- The events that wait for their packet to be ended. -/
def Encoder.held (e : Encoder) : Nat :=
  if e.isOpen then e.events.toNat else 0

/-- A clock can be read after a reset. -/
theorem Clock.exists_now_reset (k : Clock C) : ∃ t, k.reset.now = .ok t := by
  have hseq : k.reset.seq = 0 := rfl
  have hword : inHandler 0 = false := rfl
  have hhigh : ¬ 2 ^ 64 ≤ (wrapsOf 0).toNat * period bits := by simp [wrapsOf]
  simp only [now, hseq, hword, Bool.false_eq_true, if_false, stamp, if_neg hhigh]
  exact ⟨_, rfl⟩

namespace Producer

variable {p : Producer (Clock C) Encoder g} {r : Ring g} {place : Nat} {t : UInt64}

/-- A session starts with an open packet or without one, and in either case with no events. -/
theorem startSession_of_fits (hfits : 28 ≤ g.packetSize) (hplace : p.grid.index p.core = .ok place)
    (htracing : p.tracing = false) (hclosed : p.encoder.isOpen = false) (consumerIndex : UInt32) :
    (p.startSession consumerIndex).2.tracing = true ∧
      (p.startSession consumerIndex).2.encoder.held = 0 := by
  obtain ⟨t, hnow⟩ := p.clock.exists_now_reset
  obtain ⟨waiting, lastCheck, htry⟩ :=
    tryPacket_of_fits (p := p.blank) hfits hplace hnow consumerIndex
  unfold blank at htry
  rw [startSession_eq, if_neg (by simp [htracing]), blank]
  rcases htry with hrefused | ⟨packet, hstarted⟩
  · rw [hrefused]
    refine ⟨rfl, ?_⟩
    simp [Encoder.held, restart, hclosed]
  · rw [hstarted]
    exact ⟨rfl, rfl⟩

/-- The packet that is open when a session ends is published if it holds events, and given up if it
holds none. -/
theorem endSession_of_room (hfits : 28 ≤ g.packetSize) (hnow : p.now = .ok t)
    (htracing : p.tracing = true)
    (hroom : p.encoder.isOpen = true → Ring.gap p.index r.consumerIndex < Ring.capacity g) :
    (∃ notice, (p.endSession r).1 = .ok notice) ∧
      (p.endSession r).2.1.tracing = false ∧
      (p.endSession r).2.1.clock = TimeSource.stop p.clock ∧
      eventsIn (p.lastClosing r).toList = p.encoder.held ∧
      ∀ packet ∈ p.lastClosing r, packet.header.events ≠ 0 := by
  cases hlast : p.encoder.isOpen && !p.encoder.isEmpty with
  | false =>
    -- an empty packet holds no events, so giving it up loses none
    have hheld : p.encoder.held = 0 := by
      cases hopen : p.encoder.isOpen with
      | false => simp [Encoder.held, hopen]
      | true =>
        have hnone : p.encoder.events = 0 := by simpa [hopen, Encoder.isEmpty] using hlast
        simp [Encoder.held, hopen, hnone]
    simp [endSession, lastClosing, htracing, isOpen_eq, isEmpty_eq, hlast, hheld, halt]
  | true =>
    obtain ⟨hopen, hevents⟩ := Bool.and_eq_true_iff.mp hlast
    obtain ⟨packet, hheader, hend⟩ := endPacket_of_room hfits hnow hopen (hroom hopen)
    have hclosing : p.lastClosing r = some packet := by
      rw [lastClosing, htracing, isOpen_eq, isEmpty_eq, hopen, hevents]
      exact closing_of_endPacket hopen hend
    have hsome : p.encoder.events.toNat ≠ 0 := by
      rw [ne_eq, ← UInt32.toNat_zero, UInt32.toNat_inj]
      simpa [Encoder.isEmpty] using hevents
    rw [hclosing, endSession, htracing, if_pos rfl, isOpen_eq, isEmpty_eq, hlast, if_pos rfl, hend]
    refine ⟨⟨_, rfl⟩, rfl, rfl, ?_, ?_⟩
    · simp [eventsIn, hheader, Encoder.held, hopen]
    · rintro packet' ⟨⟩
      rw [hheader]
      exact hsome

end Producer

namespace Link

/-! ## Acts -/

/-- The events that an act records. -/
def Act.events : Act C g → Nat
  | .record n _ => n.toNat
  | _ => 0

/-- The events that some acts record. -/
def recorded (acts : List (Act C g)) : Nat :=
  (acts.map Act.events).sum

/-- Whether the count of events fits its word at each act. -/
def isCounted : Link C Encoder g → List (Act C g) → Bool
  | _, [] => true
  | k, a :: rest =>
    decide (k.producer.encoder.events.toNat + a.events < 2 ^ 32) && isCounted (k.next a.toStep) rest

section Run

variable {k : Link C Encoder g} {a : Act C g} {acts : List (Act C g)}

/-- What is recorded is held until it is published. -/
theorem Effect.events {k' : Link C Encoder g} {packets : List (Packet g)}
    (h : Effect k a k' packets) (hallowed : a.isAllowed k = true)
    (hcounted : k.producer.encoder.events.toNat + a.events < 2 ^ 32) :
    eventsIn packets + k'.producer.encoder.held = k.producer.encoder.held + a.events ∧
      k'.producer.tracing = k.producer.tracing := by
  cases h with
  | refused answer => simp [Act.events]
  | started answer =>
    have hclosed : k.producer.encoder.isOpen = false := by simpa [Act.isAllowed] using hallowed
    simp [Encoder.held, Act.events, hclosed]
  | recorded n fill =>
    have hopen : k.producer.encoder.isOpen = true := hallowed
    have hsum : (k.producer.encoder.events + n).toNat =
        k.producer.encoder.events.toNat + n.toNat := by
      rw [UInt32.toNat_add]
      exact Nat.mod_eq_of_lt hcounted
    simp [Encoder.held, Encoder.addEvents, Act.events, hopen, hsum]
  | idle closed => simp [Act.events]
  | published opened events => simp [eventsIn, Encoder.held, Act.events, opened, events]
  | elsewhere clock lane other =>
    have hnone : a.events = 0 := by
      cases a with
      | record n fill => cases other
      | _ => rfl
    simp [hnone]

theorem InOrder.events (h : k.InOrder) (hfits : 28 ≤ g.packetSize)
    (horderly : k.isOrderly acts = true) (hcounted : k.isCounted acts = true) :
    eventsIn (k.output acts) + (k.did acts).producer.encoder.held =
        k.producer.encoder.held + recorded acts ∧
      (k.did acts).producer.tracing = k.producer.tracing := by
  induction acts generalizing k with
  | nil => exact ⟨by simp [output, published, along, did, after, recorded], rfl⟩
  | cons a rest ih =>
    simp only [isOrderly, isCounted, Bool.and_eq_true, decide_eq_true_eq] at horderly hcounted
    obtain ⟨⟨hallowed, hnow⟩, hrest⟩ := horderly
    obtain ⟨t, hnow⟩ := Producer.exists_now hnow
    obtain ⟨hfirst, htracing⟩ := (h.effect hfits hnow hallowed).events hallowed hcounted.1
    obtain ⟨hlater, hgoesOn⟩ := ih (h.next hallowed) hrest hcounted.2
    have hrecorded : recorded (a :: rest) = a.events + recorded rest := rfl
    rw [did_cons, output_cons, hrecorded, eventsIn_append]
    exact ⟨by omega, hgoesOn.trans htracing⟩

end Run

/-! ## Sessions -/

/-- The steps of a session with some acts in it. -/
def session (acts : List (Act C g)) : List (Step C Encoder g) :=
  .call .startSession :: (acts.map Act.toStep ++ [.call .endSession])

/-- What a session came to: every event that was recorded is told of by a packet that was published,
and all of these are in the ring or were moved to the sink. -/
structure Kept (k : Link C Encoder g) (acts : List (Act C g)) : Prop where
  events : eventsIn (k.published (session acts)) = recorded acts
  pending : (k.after (session acts)).lane.ring.pending =
    (k.published (session acts)).drop (k.moved (session acts))
  received : k.isClean (session acts) = true →
    (k.after (session acts)).lane.sink.received =
      k.lane.sink.received ++ stream ((k.published (session acts)).take (k.moved (session acts)))

/-- How a session ends, with the producer as it stands before: without a fault and with no packet
but one that tells of events, and with the clock stopped. -/
structure EndsWell (k : Link C Encoder g) : Prop where
  answer : k.answer .endSession = .ok ()
  filled : ∀ packet ∈ k.sentBy (.call .endSession), packet.header.events ≠ 0
  tracing : (k.next (.call .endSession)).producer.tracing = false
  clock : (k.next (.call .endSession)).producer.clock = k.producer.clock.stop

/-- What a session publishes: what its acts do, and what its end does. -/
theorem published_session (k : Link C Encoder g) (acts : List (Act C g)) :
    k.published (session acts) = (k.next (.call .startSession)).output acts ++
      ((k.next (.call .startSession)).did acts).sentBy (.call .endSession) := by
  have hrest : (k.next (.call .startSession)).published
      (acts.map Act.toStep ++ [.call .endSession]) = _ := along_append ..
  have hend : ∀ (k : Link C Encoder g) (s : Step C Encoder g), k.published [s] = k.sentBy s :=
    fun k s => List.append_nil _
  exact hrest.trans (congrArg _ (hend _ _))

theorem keepsSink_session (acts : List (Act C g)) : ∀ s ∈ session acts, s.keepsSink = true := by
  intro s hs
  simp only [session, List.mem_cons, List.mem_append, List.mem_map, List.not_mem_nil,
    or_false] at hs
  rcases hs with rfl | ⟨a, -, rfl⟩ | rfl
  · rfl
  · exact a.keepsSink_toStep
  · rfl

section New

variable (grid : Grid) (core : Core) (clock : Clock C) (timeout : UInt64) (sink : Sink)
  {place : Nat}

/-- If packets have room for a header, no event that is recorded gets lost at the end of a session,
and the session ends well. -/
theorem events_published (hplace : grid.index core = .ok place) (hfits : 28 ≤ g.packetSize)
    {acts : List (Act C g)} :
    let k : Link C Encoder g := new grid core clock .new timeout sink
    let started := k.next (.call .startSession)
    started.isOrderly acts = true → started.isCounted acts = true →
    (∃ t, (started.did acts).producer.now = .ok t) →
    k.Kept acts ∧ (started.did acts).EndsWell := by
  intro k started horderly hcounted ⟨t, hnow⟩
  have hnew : k.InOrder := inOrder_new grid core clock timeout sink hplace
  have hstarted : started.InOrder := hnew.step rfl rfl
  obtain ⟨htracing, hheld⟩ := Producer.startSession_of_fits (p := k.producer) hfits hplace rfl rfl
    k.lane.ring.consumerIndex
  obtain ⟨hlast, -, -⟩ := hstarted.balance hfits horderly
  obtain ⟨hevents, hkept⟩ := hstarted.events hfits horderly hcounted
  -- what the acts leave open is published by the end of the session, for which a slot is kept free
  obtain ⟨⟨notice, hanswer⟩, hhalted, hclock, hfinal, hfilled⟩ :=
    Producer.endSession_of_room hfits hnow (hkept.trans htracing) fun hopen =>
      hlast.ready (.inl hopen)
  have hfeeds : k.producer.Feeds k.lane.ring 0 [] 0 :=
    (sound_new grid core clock Encoder.new timeout sink).feeds
  obtain ⟨hafter, hpassage⟩ := feeds_moved hfeeds (keepsSink_session acts)
  rw [List.nil_append, Nat.zero_add] at hafter
  refine ⟨⟨?_, hafter.ring.pending_eq, fun hclean => ?_⟩, ⟨?_, ?_, hhalted, hclock⟩⟩
  · have hpublished : k.published (session acts) =
        started.output acts ++ (started.did acts).sentBy (.call .endSession) :=
      published_session k acts
    have hsent : eventsIn ((started.did acts).sentBy (.call .endSession)) =
        (started.did acts).producer.encoder.held := hfinal
    have hnone : started.producer.encoder.held = 0 := hheld
    rw [hpublished, eventsIn_append, hsent]
    omega
  · obtain ⟨bytes, hreceived, hwhole, -⟩ := (hpassage hclean).received
    rw [hreceived, hwhole rfl, List.append_nil]
    rfl
  · simp only [answer, Producer.call, hanswer]
    rfl
  · intro packet hpacket
    exact hfilled packet (Option.mem_toList.mp hpacket)

end New

/-- A packet with three events and one without any fill the ring, one is dropped, and the session
ends with two events in the packet that is open. -/
def threePackets : List (Act (TickedCounter 16) .pair) :=
  [.record 3 id, .endPacket, .tryPacket, .endPacket, .tryPacket, .move ⟨0, 0⟩ 0 false, .tryPacket,
    .record 2 id, .clock fun k => (TickedClock.tick k 7).2]

theorem events_published_of_threePackets :
    let started := twoSlots.next (.call .startSession)
    Grid.single.index ⟨0, 0⟩ = .ok 0 ∧ 28 ≤ Geometry.pair.packetSize ∧
    started.isOrderly threePackets = true ∧ started.isCounted threePackets = true ∧
    (∃ t, (started.did threePackets).producer.now = .ok t) ∧ recorded threePackets = 5 ∧
    (twoSlots.published (session threePackets)).length = 3 ∧
    twoSlots.moved (session threePackets) = 1 ∧ twoSlots.Kept threePackets ∧
    (started.did threePackets).EndsWell := by
  intro started
  have hplace : Grid.single.index ⟨0, 0⟩ = .ok 0 := rfl
  have hfits : 28 ≤ Geometry.pair.packetSize := by decide
  have horderly : started.isOrderly threePackets = true := by decide +kernel
  have hcounted : started.isCounted threePackets = true := by decide +kernel
  have hnow : ∃ t, (started.did threePackets).producer.now = .ok t :=
    Producer.exists_now (by decide +kernel)
  obtain ⟨hkept, hends⟩ := events_published .single ⟨0, 0⟩ (TickedClock.new 16) 0 .accepting
    hplace hfits horderly hcounted hnow
  exact ⟨hplace, hfits, horderly, hcounted, hnow, by decide, by decide +kernel, by decide +kernel,
    hkept, hends⟩

/-- Without room for a header a session can start and record an event, and cannot end. -/
theorem event_lost_of_narrow :
    let started := narrow.next (.call .startSession)
    started.isOrderly [.record 1 id] = true ∧ started.isCounted [.record 1 id] = true ∧
    (started.did [.record 1 id]).answer .endSession = .error (.rangeEndsBeyond 24 16) ∧
    eventsIn (narrow.published (session [.record 1 id])) ≠ recorded (C := TickedCounter 16)
      (g := .narrow) [.record 1 id] ∧
    (narrow.after (session [.record 1 id])).producer.tracing = true := by
  refine ⟨by decide +kernel, by decide +kernel, by rfl, by decide +kernel, by decide +kernel⟩

end Link

end TraceRing
