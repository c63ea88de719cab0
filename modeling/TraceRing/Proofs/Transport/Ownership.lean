import TraceRing.Proofs.Transport.Queues

/-!
# Who writes what

The rings are all that the parties of a transport share. A call of a producer leaves its ring
alone, overwrites the text, or publishes one packet (`Producer.Touch`), whether or not it ends in a
fault. A consumer does nothing to a ring but release packets, one for each that it moved
(`Lane.Course.took`).

In every state that can be reached from empty rings the producer's own index is the shared one, and
so each field of a ring has one writer, which takes it on one step at a time
(`Transport.Reached.singleWriter`).
-/

namespace TraceRing

variable {bits : Nat} {g : Geometry}

/-! ## Producers -/

namespace Producer

variable {K E : Type}

/-- What a call of a producer makes of its ring, with the producer after the call. -/
inductive Touch (p : Producer K E g) (r : Ring g) : Producer K E g × Ring g → Prop where
  | nothing (p' : Producer K E g) : Touch p r (p', r)
  | text (p' : Producer K E g) (message : Bytes) : Touch p r (p', r.writeText message)
  /-- The packet in the producer's memory is published. -/
  | packet (p' : Producer K E g) :
      Touch p r (p', (r.setSlot p.index p'.packet).publishProducer (p.index + 1))

/-- A call changes the producer index, the slot of the producer's index and the text at most, and
the producer index together with the slot only, by one step. -/
structure Frame (p : Producer K E g) (r : Ring g) (done : Producer K E g × Ring g) : Prop where
  consumerIndex : done.2.consumerIndex = r.consumerIndex
  otherSlots : ∀ (k : Nat) (h : k < g.slots), k ≠ Ring.slot g p.index →
    done.2.packets[k] = r.packets[k]
  published :
    (done.2.producerIndex = r.producerIndex ∧ done.2.packets = r.packets) ∨
    (done.2.producerIndex = r.producerIndex + 1 ∧ done.2.getSlot p.index = done.1.packet)

/-- If the producer's own index is the shared one, whatever it may do to the ring is framed. -/
theorem Touch.frame {p : Producer K E g} {r : Ring g} {done : Producer K E g × Ring g}
    (h : p.Touch r done) (hindex : p.index = r.producerIndex) : p.Frame r done := by
  cases h with
  | nothing p' => exact ⟨rfl, fun _ _ _ => rfl, .inl ⟨rfl, rfl⟩⟩
  | text p' message =>
    have hpackets := r.packets_writeText message
    refine ⟨r.consumerIndex_writeText message, fun k hk _ => ?_, .inl ⟨?_, hpackets⟩⟩
    · simp only [hpackets]
    · exact r.producerIndex_writeText message
  | packet p' =>
    refine ⟨rfl, fun k hk hne => ?_, .inr ⟨?_, ?_⟩⟩
    · exact Vector.getElem_set_ne (Ring.slot_lt g p.index) hk hne.symm
    · rw [← hindex]
      rfl
    · exact Ring.getSlot_setSlot_self r p.index p'.packet

variable [TimeSource K] [PacketEncoder E g]

theorem touch_endPacket (p : Producer K E g) (r : Ring g) : p.Touch r (p.endPacket r).2 := by
  have hending := p.ending r
  generalize p.endPacket r = done at hending ⊢
  cases hending with
  | published hopen hnow hend hroom => exact .packet _
  | _ => exact .nothing _

theorem touch_endSession (p : Producer K E g) (r : Ring g) : p.Touch r (p.endSession r).2 := by
  refine endSession_keeps (motive := fun p' r' => p.Touch r (p', r')) (.nothing p)
    (p.touch_endPacket r) fun p' r' htouch => ?_
  -- halting keeps the packet in memory
  cases htouch with
  | nothing => exact .nothing _
  | text _ message => exact .text _ message
  | packet => exact .packet _

/-- Whatever the call, and whether or not it faults. -/
theorem touch_call (p : Producer K E g) (r : Ring g) (c : Call E g) : p.Touch r (p.call r c).2 := by
  cases c with
  | endSession => exact p.touch_endSession r
  | endPacket => exact p.touch_endPacket r
  | writeText message => exact .text p message
  | _ => exact .nothing _

/-- A packet is refused when no slot is free, after a look that is remembered. -/
theorem tryPacket_of_refused {p : Producer K E g} {consumerIndex : UInt32}
    (h : (p.tryPacket consumerIndex).1 = .ok false) :
    ∃ waiting lastCheck, (p.tryPacket consumerIndex).2 =
      { p with waiting := waiting, lastCheck := lastCheck, dropped := p.dropped + 1 } := by
  have hlook := p.isBlocked_snd consumerIndex
  rw [tryPacket_eq] at h ⊢
  generalize p.isBlocked consumerIndex = looked at hlook h ⊢
  obtain ⟨result, p'⟩ := looked
  cases result with
  | error fault => cases h
  | ok blocked =>
    cases blocked with
    | true =>
      refine ⟨p'.waiting, p'.lastCheck, ?_⟩
      dsimp only [proceed] at hlook ⊢
      rw [hlook]
    | false =>
      -- a packet that is started is not refused, and neither is one that faults
      dsimp only [proceed] at h
      split at h <;> cases h

end Producer

/-! ## Consumers -/

/-- A visit moves at most one packet. -/
theorem Tour.count_ofResult_le (place : Nat) (result : Except TransportFailure Bool) (q : Nat) :
    (ofResult place result).moved.count q ≤ 1 := by
  cases result with
  | error e => exact Nat.zero_le 1
  | ok moved =>
    cases moved with
    | false => exact Nat.zero_le 1
    | true =>
      refine Nat.le_trans List.count_le_length ?_
      simp [ofResult]

/-- A sweep moves at most one packet of each core. -/
theorem Consumer.count_sweepTour_le (grid : Grid) (verbose : Bool) (place : Nat)
    (lanes : List (Lane g)) (shutdown : Bool) (q : Nat) :
    (sweepTour grid verbose place lanes shutdown).moved.count q ≤ 1 := by
  induction lanes generalizing place shutdown with
  | nil => simp [sweepTour]
  | cons l rest ih =>
    simp only [sweepTour]
    split
    · simp
    · split
      · exact Tour.count_ofResult_le place _ q
      · next moved _ =>
        rw [Tour.count_after]
        -- the rest of the sweep is at later places than this visit
        rcases Nat.lt_or_ge q (place + 1) with hnow | hlater
        · rw [(sweepTour_of_lt grid verbose hnow rest _).1]
          exact Tour.count_ofResult_le place (.ok moved) q
        · rw [(Tour.ofResult_of_ne (show place ≠ q by omega) (.ok moved)).1, Nat.zero_add]
          exact ih (place + 1) _

namespace Transport

/-- The memory that the parties share. -/
def rings (t : Transport bits g) : List (Ring g) :=
  t.lanes.map Lane.ring

theorem getElem?_rings (t : Transport bits g) (place : Nat) :
    t.rings[place]? = t.lanes[place]?.map Lane.ring :=
  List.getElem?_map ..

/-! ## Steps of producers -/

/-- Whether an operation of a producer is a single call, or one of its clock. -/
def ProducerOp.isSingle : ProducerOp → Bool
  | .publishEvent | .burst _ => false
  | _ => true

theorem touch_runProducer (p : Producer (TickedClock bits) Encoder g) (r : Ring g) {op : ProducerOp}
    (h : op.isSingle = true) : p.Touch r (runProducer p r op).2 := by
  match hcall : (op.call? : Option (Producer.Call Encoder g)) with
  | some c =>
    rw [runProducer_of_call p r hcall]
    exact p.touch_call r c
  | none =>
    cases op with
    | clock op => exact .nothing _
    | publishEvent => cases h
    | burst n => cases h
    | _ => cases hcall

theorem rings_setRing (t : Transport bits g) (place : Nat) (r : Ring g) :
    (t.setRing place r).rings = t.rings.set place r := by
  apply List.ext_getElem?
  intro q
  rw [getElem?_rings, getElem?_setRing, List.getElem?_set, getElem?_rings]
  by_cases hplace : place = q
  · subst hplace
    cases hl : t.lanes[place]? with
    | none => simp [rings, List.getElem?_eq_none_iff.mp hl]
    | some l => simp [rings, (List.getElem?_eq_some_iff.mp hl).1]
  · simp [hplace]

theorem rings_edit (t : Transport bits g) (i : Nat)
    (work : Encoder → Packet g → Encoder × Packet g) : (t.next (.edit i work)).rings = t.rings := by
  simp only [next, step, stepEdit]
  split <;> rfl

theorem setRing_self {t : Transport bits g} {place : Nat} {l : Lane g}
    (hl : t.lanes[place]? = some l) : t.setRing place l.ring = t := by
  have hlanes : (t.lanes.modify place fun l' => { l' with ring := l.ring }) = t.lanes := by
    apply List.ext_getElem?
    intro q
    rw [List.getElem?_modify]
    by_cases hplace : place = q
    · subst hplace
      simp [hl]
    · simp [hplace]
  simp only [setRing, hlanes]

/-- A refused packet is counted, and the look at the ring is remembered; nothing else changes. -/
theorem next_of_refused {t : Transport bits g} {i : Nat} {s : Station bits g}
    (hs : t.stations[i]? = some s)
    (h : (t.step (.producer i .tryPacket)).result = .ok (.flag false)) :
    ∃ waiting lastCheck, t.next (.producer i .tryPacket) =
      { t with
        stations := t.stations.set i
          { s with
            producer :=
              { s.producer with
                waiting := waiting
                lastCheck := lastCheck
                dropped := s.producer.dropped + 1 } } } := by
  simp only [next, step, stepProducer, hs] at h ⊢
  cases hl : t.lanes[s.place]? with
  | none =>
    rw [hl] at h
    cases h
  | some l =>
    simp only [hl, runProducer] at h ⊢
    have hanswer : (s.producer.tryPacket l.ring.consumerIndex).1 = .ok false := by
      generalize (s.producer.tryPacket l.ring.consumerIndex).1 = result at h
      cases result with
      | error fault => cases h
      | ok started =>
        cases h
        rfl
    obtain ⟨waiting, lastCheck, hproducer⟩ := Producer.tryPacket_of_refused hanswer
    refine ⟨waiting, lastCheck, ?_⟩
    rw [hproducer]
    exact setRing_self hl

/-- A call of a producer works on its own ring alone, and its producer goes on from there. -/
theorem frame_next {t : Transport bits g} {i : Nat} {s : Station bits g}
    (hs : t.stations[i]? = some s) {op : ProducerOp} (hop : op.isSingle = true)
    (hindex : ∀ l, t.lanes[s.place]? = some l → s.producer.index = l.ring.producerIndex) :
    ∃ done : Producer (TickedClock bits) Encoder g × Ring g,
      (t.next (.producer i op)).stations[i]? = some { s with producer := done.1 } ∧
      (t.next (.producer i op)).rings = t.rings.set s.place done.2 ∧
      ∀ r, t.rings[s.place]? = some r → s.producer.Frame r done := by
  simp only [next, step, stepProducer, hs]
  cases hl : t.lanes[s.place]? with
  | none =>
    -- without a ring nothing is done
    have hbeyond : t.rings.length ≤ s.place := by
      simpa [rings] using List.getElem?_eq_none_iff.mp hl
    refine ⟨(s.producer, Ring.empty g), hs, (List.set_eq_of_length_le hbeyond).symm, ?_⟩
    intro r hr
    rw [getElem?_rings, hl] at hr
    cases hr
  | some l =>
    refine ⟨(runProducer s.producer l.ring op).2, ?_, rings_setRing _ _ _, ?_⟩
    · exact List.getElem?_set_self (List.getElem?_eq_some_iff.mp hs).1
    · intro r hr
      rw [getElem?_rings, hl, Option.map_some, Option.some.injEq] at hr
      subst hr
      exact (touch_runProducer s.producer l.ring hop).frame (hindex l hl)

/-! ## Steps of the consumer -/

/-- The consumer gives back the packets that it moved, and writes nothing else. -/
theorem rings_consumer (t : Transport bits g) (op : ConsumerOp) :
    (t.next (.consumer op)).rings =
      t.rings.mapIdx fun place r => r.released ((t.tour (.consumer op)).moved.count place) := by
  apply List.ext_getElem?
  intro place
  rw [List.getElem?_mapIdx, getElem?_rings, getElem?_rings]
  have hlength := t.length_lanes_next (.consumer op)
  cases hl' : (t.next (.consumer op)).lanes[place]? with
  | none =>
    rw [List.getElem?_eq_none_iff, hlength, ← List.getElem?_eq_none_iff] at hl'
    simp [hl']
  | some l' =>
    simp only [next, step] at hl'
    simp only [tour]
    split at hl'
    · next hfinished => simp [hfinished, hl']
    · next hgo =>
      obtain ⟨l, hl, hcourse⟩ := t.course_runConsumer op hl'
      simp [hgo, hl, hcourse.took.ring]

/-- A single move is of the core it is asked for. -/
theorem count_move (t : Transport bits g) (core : Core) (place : Nat) :
    (t.tour (.consumer (.move core))).moved.count place ≤ 1 ∧
    (t.grid.index core ≠ .ok place → (t.tour (.consumer (.move core))).moved.count place = 0) := by
  simp only [tour, tourIn]
  split
  · exact ⟨Nat.zero_le 1, fun _ => rfl⟩
  · cases hlane : t.laneOf core with
    | error fault => exact ⟨Nat.zero_le 1, fun _ => rfl⟩
    | ok found =>
      obtain ⟨q, l⟩ := found
      refine ⟨Tour.count_ofResult_le q _ place, fun hother => ?_⟩
      have hne : q ≠ place := fun heq => hother (heq ▸ index_of_laneOf hlane)
      exact (Tour.ofResult_of_ne hne _).1

theorem count_sweep_le (t : Transport bits g) (place : Nat) :
    (t.tour (.consumer .sweep)).moved.count place ≤ 1 := by
  simp only [tour]
  split
  · exact Nat.zero_le 1
  · exact Consumer.count_sweepTour_le ..

/-- The transport after some sweeps in a row. -/
def afterSweeps (t : Transport bits g) (n : Nat) : Transport bits g :=
  t.after (List.replicate n (.consumer .sweep))

theorem afterSweeps_succ (t : Transport bits g) (n : Nat) :
    t.afterSweeps (n + 1) = (t.next (.consumer .sweep)).afterSweeps n :=
  rfl

/-- Sweeping until nothing moves is a number of sweeps. -/
theorem exists_afterSweeps (t : Transport bits g) (hworks : t.finished = false) :
    ∃ n, t.afterSweeps n =
      { t with
        lanes := (Consumer.drain t.grid t.verbose t.lanes t.shutdown).lanes
        shutdown := (Consumer.drain t.grid t.verbose t.lanes t.shutdown).shutdown } := by
  -- a sweep that moves something leaves less to move
  induction hm : Consumer.backlog t.lanes using Nat.strongRecOn generalizing t with
  | ind m ih =>
    have hsweep : t.next (.consumer .sweep) =
        { t with
          lanes := (Consumer.sweep t.grid t.verbose t.lanes t.shutdown).lanes
          shutdown := (Consumer.sweep t.grid t.verbose t.lanes t.shutdown).shutdown } := by
      simp only [next, step, hworks, Bool.false_eq_true, if_false, runConsumer, ofPass]
    rw [Consumer.drain_eq]
    cases hresult : (Consumer.sweep t.grid t.verbose t.lanes t.shutdown).result with
    | error e =>
      refine ⟨1, ?_⟩
      simp only [hresult]
      exact hsweep
    | ok n =>
      cases n with
      | zero =>
        refine ⟨1, ?_⟩
        simp only [hresult]
        exact hsweep
      | succ n =>
        have hstep := Consumer.backlog_sweepFrom t.grid t.verbose 0 t.lanes t.shutdown hresult
        have hfewer : Consumer.backlog (t.next (.consumer .sweep)).lanes < m := by
          rw [hsweep]
          change Consumer.backlog (Consumer.sweepFrom _ _ 0 _ _).lanes < m
          omega
        obtain ⟨k, hk⟩ := ih _ hfewer (t.next (.consumer .sweep)) (by rw [hsweep]; exact hworks) rfl
        refine ⟨k + 1, ?_⟩
        rw [afterSweeps_succ, hk, hsweep]
        simp only [hresult, Consumer.Pass.behind]

theorem shutdown_run (grid : Grid) (verbose : Bool) (pollNanos : Nat) (lanes : List (Lane g))
    (shutdown : Bool) :
    (Consumer.run grid verbose pollNanos lanes shutdown).shutdown
      = (Consumer.drain grid verbose lanes shutdown).shutdown := by
  simp only [Consumer.run, Consumer.sweepOn]
  split <;> rfl

/-- A run of the consumer is a number of sweeps. -/
theorem exists_sweeps (t : Transport bits g) (pollNanos : Nat) :
    ∃ n, t.next (.consumer (.run pollNanos)) = t.afterSweeps n := by
  cases hfinished : t.finished with
  | true =>
    refine ⟨0, ?_⟩
    simp only [next, step, hfinished, if_true]
    rfl
  | false =>
    obtain ⟨n, hn⟩ := t.exists_afterSweeps hfinished
    refine ⟨n, ?_⟩
    rw [hn]
    simp only [next, step, hfinished, Bool.false_eq_true, if_false, runConsumer, ofPass,
      Consumer.lanes_run, shutdown_run]

/-! ## All states -/

/-- The states that can be reached from empty rings, with no two producers at one ring: the
parties do something, or a new consumer starts at the rings. -/
inductive Reached : Transport bits g → Prop where
  | build {grid : Grid} {rings : Nat} {sinks : List Sink} {producers : List (Core × UInt64)}
      {verbose shutdown : Bool} {t : Transport bits g}
      (hbuild : Transport.build bits g grid rings sinks producers verbose shutdown = .ok t)
      (hapart : t.Apart) : Reached t
  | step {t : Transport bits g} {s : Step g} (h : Reached t) (hs : s.isProper = true) :
      Reached (t.next s)
  | attach {t : Transport bits g} {sinks : List Sink} {lanes : List (Lane g)} (h : Reached t)
      (hattach : Consumer.attach t.grid t.rings sinks = .ok lanes) (verbose : Bool) :
      Reached { t with lanes := lanes, verbose := verbose, finished := false }

/-- In a state that can be reached, the history and the rings agree. -/
theorem Reached.sound {t : Transport bits g} (h : t.Reached) :
    ∃ sent taken, t.Sound sent taken := by
  induction h with
  | build hbuild hapart => exact ⟨_, _, .ofBuild hbuild hapart⟩
  | step h hs ih =>
    obtain ⟨sent, taken, hsound⟩ := ih
    exact ⟨_, _, hsound.step hs⟩
  | @attach t sinks lanes h hattach verbose ih =>
    obtain ⟨sent, taken, hsound⟩ := ih
    refine ⟨sent, taken, hsound.apart, hsound.index, fun place l' hl' => ?_⟩
    obtain ⟨ring, sink, hring, -, rfl⟩ := Consumer.lane_of_attach hattach hl'
    rw [getElem?_rings, Option.map_eq_some_iff] at hring
    obtain ⟨l, hl, rfl⟩ := hring
    exact hsound.carries place l hl

theorem Reached.after {t : Transport bits g} (h : t.Reached) {steps : List (Step g)}
    (hproper : ∀ s ∈ steps, s.isProper = true) : (t.after steps).Reached := by
  induction steps generalizing t with
  | nil => exact h
  | cons s rest ih =>
    obtain ⟨hs, hrest⟩ := List.forall_mem_cons.mp hproper
    exact ih (h.step hs) hrest

/-- What each party may write in a state. -/
structure SingleWriter (t : Transport bits g) : Prop where
  /-- A call of a producer, whatever its result, writes its own ring alone, within its frame. -/
  call : ∀ (i : Nat) (s : Station bits g) (op : ProducerOp),
    t.stations[i]? = some s → op.isSingle = true →
      ∃ done : Producer (TickedClock bits) Encoder g × Ring g,
        (t.next (.producer i op)).stations[i]? = some { s with producer := done.1 } ∧
        (t.next (.producer i op)).rings = t.rings.set s.place done.2 ∧
        ∀ r, t.rings[s.place]? = some r → s.producer.Frame r done
  /-- Work on the packet in memory writes no ring. -/
  edit : ∀ (i : Nat) (work : Encoder → Packet g → Encoder × Packet g),
    (t.next (.edit i work)).rings = t.rings
  /-- A packet that is refused changes the count of dropped ones and the state of waiting. -/
  refused : ∀ (i : Nat) (s : Station bits g), t.stations[i]? = some s →
    (t.step (.producer i .tryPacket)).result = .ok (.flag false) →
      ∃ waiting lastCheck, t.next (.producer i .tryPacket) =
        { t with
          stations := t.stations.set i
            { s with
              producer :=
                { s.producer with
                  waiting := waiting
                  lastCheck := lastCheck
                  dropped := s.producer.dropped + 1 } } }
  /-- The consumer advances each consumer index by the packets it moved, and writes nothing else. -/
  consumer : ∀ op, (t.next (.consumer op)).rings =
    t.rings.mapIdx fun place r => r.released ((t.tour (.consumer op)).moved.count place)
  /-- A move is of one packet at most, and of the core it is asked for. -/
  move : ∀ core place,
    (t.tour (.consumer (.move core))).moved.count place ≤ 1 ∧
    (t.grid.index core ≠ .ok place → (t.tour (.consumer (.move core))).moved.count place = 0)
  /-- A sweep moves at most one packet of each core. -/
  sweep : ∀ place, (t.tour (.consumer .sweep)).moved.count place ≤ 1
  /-- A run is a number of sweeps. -/
  run : ∀ pollNanos, ∃ n, t.next (.consumer (.run pollNanos)) = t.afterSweeps n
  finish : (t.next (.consumer .finish)).rings = t.rings

/-- The rule of the single writer. In every state that can be reached, each party writes the fields
that are its own, of the rings that are its own, and nothing else. -/
theorem Reached.singleWriter {t : Transport bits g} (h : t.Reached) : t.SingleWriter where
  call i s op hs hop := by
    obtain ⟨sent, taken, hsound⟩ := h.sound
    refine frame_next hs hop fun l hl => ?_
    exact (hsound.feeds hs hl).index_eq
  edit := t.rings_edit
  refused i s hs hrefused := next_of_refused hs hrefused
  consumer := t.rings_consumer
  move := t.count_move
  sweep := t.count_sweep_le
  run := t.exists_sweeps
  finish := by
    simp only [next, Transport.step]
    split <;> rfl

theorem singleWriter_of_fillAndDrain :
    (twoSlots.after fillAndDrain).Reached ∧ (twoSlots.after fillAndDrain).SingleWriter ∧
    (twoSlots.after fillAndDrain).rings.map (fun r => (r.producerIndex, r.consumerIndex))
      = [(3, 2)] := by
  have hbuild : build 16 .pair twoSlots.grid 1 [.accepting] [(⟨0, 0⟩, 0)] false false
      = .ok twoSlots := rfl
  have hapart : twoSlots.Apart := by simp [Apart, twoSlots]
  have hproper : ∀ s ∈ fillAndDrain, s.isProper = true := by simp [fillAndDrain, Step.isProper]
  have hreached : (twoSlots.after fillAndDrain).Reached :=
    (Reached.build hbuild hapart).after hproper
  exact ⟨hreached, hreached.singleWriter, by decide +kernel⟩

end Transport

end TraceRing
