import TraceRing.Proofs.Transport.History

/-!
# The queues of a transport

Whatever producers, clocks, consumer and shutdown do, and in whatever order, each ring of a
transport stands for a bounded queue whose indices never wrap (`Lane.IsQueue`): the packets sent
so far were put in at its end, and those the consumer moved were taken out at its front, to the
sink. `Transport.refines_queues` is the law for all runs from empty rings.
-/

namespace TraceRing

variable {bits : Nat} {g : Geometry}

/-- The lane is a queue without wraparound into which some packets were put, the first `taken` of
which were taken out. -/
structure Lane.IsQueue (l : Lane g) (put : List (Packet g)) (taken : Nat) : Prop where
  taken_le : taken ≤ put.length
  length_le : put.length ≤ taken + g.slots
  producerIndex : l.ring.producerIndex.toNat = put.length % 2 ^ 32
  consumerIndex : l.ring.consumerIndex.toNat = taken % 2 ^ 32
  consumed : l.consumed = taken
  slot : ∀ k < put.length - taken, l.ring.packets[(taken + k) % g.slots]? = put[taken + k]?

theorem Lane.isQueue {l : Lane g} {put : List (Packet g)} {taken : Nat}
    (h : l.ring.Carries 0 put taken) (hconsumed : l.consumed = taken) : l.IsQueue put taken where
  taken_le := h.taken_le
  length_le := h.length_le
  producerIndex := by rw [h.producerIndex, Nat.zero_add, UInt32.toNat_ofNat']
  consumerIndex := by rw [h.consumerIndex, Nat.zero_add, UInt32.toNat_ofNat']
  consumed := hconsumed
  slot k hk := by
    have hlt : taken + k < put.length := by omega
    have hslot := h.getSlot (taken + k) hlt (Nat.le_add_right ..)
    rw [Nat.zero_add] at hslot
    rw [List.getElem?_eq_getElem hlt, ← hslot,
      Vector.getElem?_eq_getElem (Nat.mod_lt _ g.slots_pos)]
    simp only [Ring.getSlot, Ring.slot_ofNat]

namespace Transport

/-! ## New transports -/

theorem exists_of_mem_mapM {α β ε : Type} {f : α → Except ε β} {xs : List α} {ys : List β}
    (h : xs.mapM f = .ok ys) {y : β} (hy : y ∈ ys) : ∃ x ∈ xs, f x = .ok y := by
  induction xs generalizing ys with
  | nil =>
    cases h
    cases hy
  | cons x xs ih =>
    rw [List.mapM_cons] at h
    cases hx : f x with
    | error e =>
      rw [hx] at h
      cases h
    | ok first =>
      cases hxs : xs.mapM f with
      | error e =>
        rw [hx, hxs] at h
        cases h
      | ok rest =>
        rw [hx, hxs] at h
        cases h
        rcases List.mem_cons.mp hy with rfl | hrest
        · exact ⟨x, List.mem_cons_self, hx⟩
        · obtain ⟨x', hmem, hx'⟩ := ih hxs hrest
          exact ⟨x', List.mem_cons_of_mem x hmem, hx'⟩

theorem index_of_newStation {grid : Grid} {rings : Nat} {core : Core} {timeout : UInt64}
    {s : Station bits g} (h : newStation bits g grid rings core timeout = .ok s) :
    s.producer.index = 0 := by
  simp only [newStation] at h
  split at h
  · cases h
  · split at h
    · cases h
      rfl
    · cases h

section Build

variable {grid : Grid} {rings : Nat} {sinks : List Sink} {producers : List (Core × UInt64)}
  {verbose shutdown : Bool} {t : Transport bits g}

theorem parts_of_build (h : build bits g grid rings sinks producers verbose shutdown = .ok t) :
    producers.mapM (fun p => newStation bits g grid rings p.1 p.2) = .ok t.stations ∧
      Consumer.attach grid (List.replicate rings (Ring.empty g)) sinks = .ok t.lanes := by
  simp only [build] at h
  cases hstations : producers.mapM fun p => newStation bits g grid rings p.1 p.2 with
  | error fault =>
    rw [hstations] at h
    cases h
  | ok stations =>
    cases hlanes : Consumer.attach grid (List.replicate rings (Ring.empty g)) sinks with
    | error fault =>
      rw [hstations, hlanes] at h
      cases h
    | ok lanes =>
      rw [hstations, hlanes] at h
      cases h
      exact ⟨rfl, rfl⟩

/-- The lanes of a new transport are new and have empty rings. -/
theorem lane_of_build (h : build bits g grid rings sinks producers verbose shutdown = .ok t)
    {place : Nat} {l : Lane g} (hl : t.lanes[place]? = some l) :
    ∃ sink, sinks[place]? = some sink ∧ l = Lane.new (Ring.empty g) sink := by
  obtain ⟨ring, sink, hring, hsink, hnew⟩ := Consumer.lane_of_attach (parts_of_build h).2 hl
  rw [List.getElem?_replicate] at hring
  split at hring
  · cases hring
    exact ⟨sink, hsink, hnew⟩
  · cases hring

/-- A new transport has sent and taken nothing. -/
theorem Sound.ofBuild (h : build bits g grid rings sinks producers verbose shutdown = .ok t)
    (hapart : t.Apart) : t.Sound (fun _ => []) (fun _ => 0) where
  apart := hapart
  index i s hs := by
    obtain ⟨p, -, hp⟩ := exists_of_mem_mapM (parts_of_build h).1 (List.mem_of_getElem? hs)
    exact index_of_newStation hp
  carries place l hl := by
    obtain ⟨sink, -, rfl⟩ := lane_of_build h hl
    exact Ring.Carries.empty g

end Build

/-! ## Runs -/

theorem length_runConsumer (t : Transport bits g) (op : ConsumerOp) :
    (t.runConsumer op).transport.lanes.length = t.lanes.length := by
  cases op with
  | move core =>
    simp only [runConsumer, stepMove]
    split
    · rfl
    · exact List.length_set ..
  | sweep => exact Consumer.length_sweepFrom ..
  | run pollNanos =>
    have hlanes : (t.runConsumer (.run pollNanos)).transport.lanes =
        (Consumer.drain t.grid t.verbose t.lanes t.shutdown).lanes :=
      Consumer.lanes_run t.grid t.verbose pollNanos t.lanes t.shutdown
    rw [hlanes]
    exact Consumer.length_drain ..
  | _ => rfl

theorem length_lanes_next (t : Transport bits g) (s : Step g) :
    (t.next s).lanes.length = t.lanes.length := by
  cases s with
  | producer i op =>
    simp only [next, step, stepProducer]
    split
    · rfl
    · split
      · rfl
      · exact List.length_modify ..
  | edit i work =>
    simp only [next, step, stepEdit]
    split <;> rfl
  | ring q op =>
    simp only [next, step]
    split
    · rfl
    · exact List.length_modify ..
  | setShutdown requested => rfl
  | consumer op =>
    simp only [next, step]
    split
    · rfl
    · exact t.length_runConsumer op

theorem length_lanes_after (t : Transport bits g) (steps : List (Step g)) :
    (t.after steps).lanes.length = t.lanes.length := by
  induction steps generalizing t with
  | nil => rfl
  | cons s rest ih => exact (ih (t.next s)).trans (t.length_lanes_next s)

variable {t : Transport bits g} {sent : Nat → List (Packet g)} {taken : Nat → Nat}

/-- A run of proper steps keeps the rings and the history together. -/
theorem Sound.after (h : t.Sound sent taken) {steps : List (Step g)}
    (hproper : ∀ s ∈ steps, s.isProper = true) :
    (t.after steps).Sound (fun place => sent place ++ t.sent place steps)
      (fun place => taken place + t.taken place steps) := by
  induction steps generalizing t sent taken with
  | nil => simpa [Transport.after, Transport.sent, Transport.taken, along] using h
  | cons s rest ih =>
    obtain ⟨hs, hrest⟩ := List.forall_mem_cons.mp hproper
    have hlater := ih (h.step hs) hrest
    simpa [Transport.after, Transport.sent, Transport.taken, along, next, Nat.add_assoc]
      using hlater

/-- Along a run without a failed write in a lane, the lane moves on in one passage; it counts what
it moved in any case. -/
theorem Sound.passage_after (h : t.Sound sent taken) {steps : List (Step g)}
    (hproper : ∀ s ∈ steps, s.isProper = true) {place : Nat} {l' : Lane g}
    (hl' : (t.after steps).lanes[place]? = some l') :
    ∃ l, t.lanes[place]? = some l ∧ l'.consumed = l.consumed + t.taken place steps ∧
      (place ∉ t.failures steps →
        l.Passage l' (sent place ++ t.sent place steps) (taken place) (t.taken place steps)
          false) := by
  induction steps generalizing t sent taken with
  | nil =>
    refine ⟨l', hl', rfl, fun _ => ?_⟩
    exact .still (by simpa [Transport.sent, along] using h.carries place l' hl') rfl rfl
  | cons s rest ih =>
    obtain ⟨hs, hrest⟩ := List.forall_mem_cons.mp hproper
    -- the rest of the run starts from the lane `m` that the first step left
    obtain ⟨m, hm, hconsumed, hpassage⟩ := ih (h.step hs) hrest hl'
    obtain ⟨l, hl, hfirst⟩ := h.passage hs hm
    refine ⟨l, hl, ?_, fun hclean => ?_⟩
    · rw [hconsumed, hfirst.consumed, Nat.add_assoc]
      simp [Transport.taken, along]
    · simp only [failures, along, List.mem_append, not_or] at hclean
      obtain ⟨hcleanNow, hcleanLater⟩ := hclean
      rw [Tour.failedAt_eq_false_iff.mpr hcleanNow] at hfirst
      -- no write of the first step failed, so the two passages are one
      have hall := hfirst.trans _ (hpassage hcleanLater)
      simpa [Transport.sent, Transport.taken, along] using hall

/-! ## All runs -/

/-- The law of the transport. From empty rings, with no two producers at one ring, and whatever the
parties do in whatever order: each ring is a queue of what was sent to it and taken from it, and as
long as no write to its sink failed, the sink got exactly the packets taken. -/
theorem refines_queues {grid : Grid} {rings : Nat} {sinks : List Sink}
    {producers : List (Core × UInt64)} {verbose shutdown : Bool} {t : Transport bits g}
    (hbuild : build bits g grid rings sinks producers verbose shutdown = .ok t)
    (hapart : t.Apart) {steps : List (Step g)} (hproper : ∀ s ∈ steps, s.isProper = true)
    {place : Nat} (hplace : place < grid.count) :
    ∃ l sink, (t.after steps).lanes[place]? = some l ∧ sinks[place]? = some sink ∧
      l.IsQueue (t.sent place steps) (t.taken place steps) ∧
      (place ∉ t.failures steps → l.sink.received =
        sink.received ++ stream ((t.sent place steps).take (t.taken place steps))) := by
  have hsound := Sound.ofBuild hbuild hapart
  have hlength : (t.after steps).lanes.length = grid.count := by
    rw [length_lanes_after, Consumer.length_of_attach (parts_of_build hbuild).2]
  have hl : (t.after steps).lanes[place]? = some (t.after steps).lanes[place] :=
    List.getElem?_eq_getElem (by omega)
  generalize (t.after steps).lanes[place] = l at hl
  obtain ⟨before, hbefore, hconsumed, hpassage⟩ := hsound.passage_after hproper hl
  obtain ⟨sink, hsink, rfl⟩ := lane_of_build hbuild hbefore
  have hring := (hsound.after hproper).carries place l hl
  refine ⟨l, sink, hl, hsink, Lane.isQueue ?_ ?_, fun hclean => ?_⟩
  · simpa using hring
  · simpa [Lane.new] using hconsumed
  · obtain ⟨bytes, hreceived, hnone, -⟩ := (hpassage hclean).received
    simpa [Lane.new, hnone rfl] using hreceived

/-- A new transport of one core, with two slots of 32 bytes. -/
def twoSlots : Transport 16 .pair where
  grid := .single
  lanes := [.new (.empty _) .accepting]
  stations := [⟨.new .single ⟨0, 0⟩ (TickedClock.new 16) .new 0, 0⟩]
  verbose := false
  shutdown := false
  finished := false

/-- The ring is filled, a packet is dropped, two are moved, and a slot is used again. -/
def fillAndDrain : List (Step .pair) :=
  [.producer 0 .publishEvent, .producer 0 .publishEvent, .producer 0 .publishEvent,
    .consumer .sweep, .consumer .sweep, .producer 0 .publishEvent]

theorem refines_queues_of_twoSlots :
    build 16 .pair twoSlots.grid 1 [.accepting] [(⟨0, 0⟩, 0)] false false
      = .ok twoSlots ∧
    twoSlots.Apart ∧ (∀ s ∈ fillAndDrain, s.isProper = true) ∧ 0 < twoSlots.grid.count ∧
    ∃ l, (twoSlots.after fillAndDrain).lanes[0]? = some l ∧
      (twoSlots.sent 0 fillAndDrain).length = 3 ∧ l.IsQueue (twoSlots.sent 0 fillAndDrain) 2 ∧
      l.sink.received = stream ((twoSlots.sent 0 fillAndDrain).take 2) := by
  have hbuild : build 16 .pair twoSlots.grid 1 [.accepting] [(⟨0, 0⟩, 0)] false false
      = .ok twoSlots := rfl
  have hapart : twoSlots.Apart := by simp [Apart, twoSlots]
  have hproper : ∀ s ∈ fillAndDrain, s.isProper = true := by simp [fillAndDrain, Step.isProper]
  have hplace : 0 < twoSlots.grid.count := by decide
  have htaken : twoSlots.taken 0 fillAndDrain = 2 := by decide +kernel
  have hclean : 0 ∉ twoSlots.failures fillAndDrain := by decide +kernel
  obtain ⟨l, sink, hl, hsink, hqueue, hreceived⟩ := refines_queues hbuild hapart hproper hplace
  obtain rfl : Sink.accepting = sink := Option.some.inj hsink
  have hnothing : Sink.accepting.received = [] := rfl
  rw [htaken] at hqueue hreceived
  rw [hnothing, List.nil_append] at hreceived
  exact ⟨hbuild, hapart, hproper, hplace, l, hl, by decide +kernel, hqueue, hreceived hclean⟩

end Transport

end TraceRing
