import TraceRing.Proofs.Transport.Queues
import TraceRing.Proofs.Transport.Tenures

/-!
# Consumers one after another

A consumer stops when a write fails, or because shutdown is requested, and at some time another
one starts at the same rings with fresh sinks, any number of times, while the producers go on. A
`Succession` keeps the lanes of the consumers that were replaced. For each core their sinks hold
the packets sent, each of them once and in order (`Succession.delivers_once`).
-/

namespace TraceRing

/-- Whether nothing was written to a sink yet. -/
def Sink.isFresh (s : Sink) : Bool :=
  s.received.isEmpty

theorem Sink.received_of_isFresh {sinks : List Sink} (h : sinks.all isFresh = true) {s : Sink}
    (hs : s ∈ sinks) : s.received = [] :=
  List.isEmpty_iff.mp (List.all_eq_true.mp h s hs)

/-- Whether a step is one of the consumer. -/
def Transport.Step.isConsumer {g : Geometry} : Transport.Step g → Bool
  | .consumer _ => true
  | _ => false

/-- What a consumer made of all lanes, and the place of the failed write that stopped it. -/
structure Reign (g : Geometry) where
  lanes : List (Lane g)
  failed : Option Nat

/-- What the consumer made of the lane at a place. -/
def Reign.tenure? {g : Geometry} (r : Reign g) (place : Nat) : Option (Tenure g) :=
  r.lanes[place]?.map fun l => ⟨l, r.failed == some place⟩

/-- A transport whose consumer was replaced some times. -/
structure Succession (bits : Nat) (g : Geometry) where
  transport : Transport bits g
  /-- The place of the failed write that stopped the consumer. -/
  failed : Option Nat
  /-- The consumers that were replaced, in order. -/
  retired : List (Reign g)

namespace Succession

variable {bits : Nat} {g : Geometry}

/-! ## Steps -/

/-- A step of the transport, or a new consumer. -/
inductive Step (g : Geometry) where
  | step (s : Transport.Step g)
  /-- A new consumer starts at the rings, with sinks of its own. -/
  | replace (sinks : List Sink)

/-- Whether a step goes through the parties of the transport, and a new consumer has fresh
sinks. -/
def Step.isProper : Step g → Bool
  | .step s => s.isProper
  | .replace sinks => sinks.all Sink.isFresh

/-- The succession with its first consumer. -/
def start (t : Transport bits g) : Succession bits g :=
  ⟨t, none, []⟩

/-- The consumer at work. -/
def current (k : Succession bits g) : Reign g :=
  ⟨k.transport.lanes, k.failed⟩

/-- The succession when a new consumer takes over, with some lanes. -/
def succeededBy (k : Succession bits g) (lanes : List (Lane g)) : Succession bits g where
  transport := { k.transport with lanes := lanes, finished := false }
  failed := none
  retired := k.retired ++ [k.current]

/-- The succession after a step. A consumer whose write failed does nothing more. -/
def next (k : Succession bits g) : Step g → Succession bits g
  | .step s =>
    if k.failed.isSome && s.isConsumer then k
    else { k with
      transport := k.transport.next s
      failed := k.failed.or (k.transport.tour s).failed }
  | .replace sinks =>
    match Consumer.attach k.transport.grid (k.transport.lanes.map Lane.ring) sinks with
    | .error _ => k
    | .ok lanes => k.succeededBy lanes

/-- The succession after a list of steps. -/
def after (k : Succession bits g) (steps : List (Step g)) : Succession bits g :=
  steps.foldl next k

/-- The packets that a step publishes in the ring at a place. -/
def sentBy (k : Succession bits g) (place : Nat) : Step g → List (Packet g)
  | .step s => k.transport.sentBy place s
  | .replace _ => []

/-- The packets published in the ring at a place along a run. -/
def sent (k : Succession bits g) (place : Nat) (steps : List (Step g)) : List (Packet g) :=
  along next (fun k s => k.sentBy place s) k steps

/-- What the replaced consumers made of the lane at a place. -/
def earlier (k : Succession bits g) (place : Nat) : List (Tenure g) :=
  k.retired.filterMap (·.tenure? place)

/-- What all consumers made of the lane at a place. -/
def tenures (k : Succession bits g) (place : Nat) : List (Tenure g) :=
  (k.retired ++ [k.current]).filterMap (·.tenure? place)

/-- A new consumer has as many lanes as the one before. -/
theorem length_of_attach {k : Succession bits g} {sinks : List Sink} {lanes : List (Lane g)}
    (hattach : Consumer.attach k.transport.grid (k.transport.lanes.map Lane.ring) sinks
      = .ok lanes) : lanes.length = k.transport.lanes.length := by
  obtain ⟨hrings, -, -⟩ := Consumer.eq_of_attach hattach
  rw [Consumer.length_of_attach hattach, ← hrings, List.length_map]

theorem length_lanes_next (k : Succession bits g) (s : Step g) :
    (k.next s).transport.lanes.length = k.transport.lanes.length := by
  cases s with
  | step s =>
    simp only [next]
    split
    · rfl
    · exact k.transport.length_lanes_next s
  | replace sinks =>
    simp only [next]
    split
    · rfl
    · next lanes hattach => exact length_of_attach hattach

theorem length_lanes_after (k : Succession bits g) (steps : List (Step g)) :
    (k.after steps).transport.lanes.length = k.transport.lanes.length := by
  induction steps generalizing k with
  | nil => rfl
  | cons s rest ih => exact (ih (k.next s)).trans (k.length_lanes_next s)

theorem tenures_of_lane {k : Succession bits g} {place : Nat} {l : Lane g}
    (hl : k.transport.lanes[place]? = some l) :
    k.tenures place = k.earlier place ++ [⟨l, k.failed == some place⟩] := by
  simp [tenures, earlier, current, Reign.tenure?, hl]

theorem tenures_of_none {k : Succession bits g} {place : Nat}
    (hl : k.transport.lanes[place]? = none) : k.tenures place = k.earlier place := by
  simp [tenures, earlier, current, Reign.tenure?, hl]

/-! ## The consumers and the rings -/

/-- The replaced consumers followed each other, and the one at work goes on after them. -/
structure Sound (k : Succession bits g) (sent : Nat → List (Packet g)) (taken : Nat → Nat) :
    Prop where
  transport : k.transport.Sound sent taken
  earlier : ∀ place, Tenure.Succeed (sent place) 0 (k.earlier place)
  lane : ∀ (place : Nat) (l : Lane g), k.transport.lanes[place]? = some l →
    taken place = Tenure.passed (k.earlier place) + l.consumed ∧
    ∃ fresh : Lane g, fresh.consumed = 0 ∧ fresh.sink.received = [] ∧
      fresh.Passage l (sent place) (Tenure.passed (k.earlier place)) l.consumed
        (k.failed == some place)
  full : ∀ r ∈ k.retired, r.lanes.length = k.transport.lanes.length

theorem tour_of_not_consumer (t : Transport bits g) {s : Transport.Step g}
    (hs : s.isConsumer = false) : t.tour s = .idle := by
  cases s with
  | consumer op => cases hs
  | _ => rfl

theorem sentBy_of_consumer (t : Transport bits g) {s : Transport.Step g}
    (hs : s.isConsumer = true) (place : Nat) : t.sentBy place s = [] := by
  cases s with
  | consumer op => rfl
  | _ => cases hs

namespace Sound

variable {k : Succession bits g} {sent : Nat → List (Packet g)} {taken : Nat → Nat}

/-- The lane of the consumer at work goes on, or rests once a write has failed. -/
theorem lane_step (h : k.Sound sent taken) {s : Transport.Step g} (hs : s.isProper = true)
    (hworks : (k.failed.isSome && s.isConsumer) = false) {place : Nat} {l' : Lane g}
    (hl' : (k.transport.next s).lanes[place]? = some l') :
    taken place + (k.transport.tour s).moved.count place =
        Tenure.passed (k.earlier place) + l'.consumed ∧
      ∃ fresh : Lane g, fresh.consumed = 0 ∧ fresh.sink.received = [] ∧
        fresh.Passage l' (sent place ++ k.transport.sentBy place s)
          (Tenure.passed (k.earlier place)) l'.consumed
          (k.failed.or (k.transport.tour s).failed == some place) := by
  obtain ⟨l, hl, hpassage⟩ := h.transport.passage hs hl'
  obtain ⟨htaken, fresh, hcount, hsink, hbefore⟩ := h.lane place l hl
  rw [htaken] at hpassage
  refine ⟨by rw [hpassage.consumed, htaken, Nat.add_assoc], fresh, hcount, hsink, ?_⟩
  -- after a failed write only the other parties make steps, and the passage stays failed
  cases hfailed : k.failed with
  | none =>
    rw [hfailed] at hbefore
    rw [hpassage.consumed]
    exact hbefore.trans _ hpassage
  | some q =>
    rw [hfailed] at hbefore
    have hother : s.isConsumer = false := by simpa [hfailed] using hworks
    rw [tour_of_not_consumer _ hother] at hpassage
    rw [hpassage.consumed]
    exact hbefore.rest _ hpassage

theorem step (h : k.Sound sent taken) {s : Transport.Step g} (hs : s.isProper = true) :
    ∃ taken', (k.next (.step s)).Sound (fun place => sent place ++ k.sentBy place (.step s))
      taken' := by
  simp only [Succession.next, sentBy]
  split
  · next hstopped =>
    rw [Bool.and_eq_true] at hstopped
    refine ⟨taken, ?_⟩
    simpa only [sentBy_of_consumer _ hstopped.2, List.append_nil] using h
  · next hworks =>
    rw [Bool.not_eq_true] at hworks
    refine ⟨_, h.transport.step hs, fun place => (h.earlier place).append _, ?_, ?_⟩
    · intro place l' hl'
      exact h.lane_step hs hworks hl'
    · intro r hr
      rw [h.full r hr]
      exact (k.transport.length_lanes_next s).symm

/-- The consumers so far followed each other, the one at work included. -/
theorem succeed_tenures (h : k.Sound sent taken) (place : Nat) :
    Tenure.Succeed (sent place) 0 (k.tenures place) := by
  cases hl : k.transport.lanes[place]? with
  | none =>
    rw [tenures_of_none hl]
    exact h.earlier place
  | some l =>
    obtain ⟨-, fresh, -, hsink, hpassage⟩ := h.lane place l hl
    rw [tenures_of_lane hl]
    refine (h.earlier place).concat ?_
    rw [Nat.zero_add]
    exact Tenure.continues_of_passage hsink hpassage

theorem passed_tenures (h : k.Sound sent taken) {place : Nat} {l : Lane g}
    (hl : k.transport.lanes[place]? = some l) :
    taken place = Tenure.passed (k.tenures place) := by
  rw [tenures_of_lane hl, (h.lane place l hl).1]
  simp [Tenure.passed]

theorem succeededBy (h : k.Sound sent taken) {sinks : List Sink} {lanes : List (Lane g)}
    (hfresh : sinks.all Sink.isFresh = true)
    (hattach : Consumer.attach k.transport.grid (k.transport.lanes.map Lane.ring) sinks
      = .ok lanes) : (k.succeededBy lanes).Sound sent taken := by
  -- each new lane has the ring of an old one
  have hnew : ∀ (place : Nat) (l' : Lane g), lanes[place]? = some l' →
      ∃ l sink, k.transport.lanes[place]? = some l ∧ sink ∈ sinks ∧ l' = Lane.new l.ring sink := by
    intro place l' hl'
    obtain ⟨ring, sink, hring, hsink, hl'⟩ := Consumer.lane_of_attach hattach hl'
    rw [List.getElem?_map, Option.map_eq_some_iff] at hring
    obtain ⟨l, hl, rfl⟩ := hring
    exact ⟨l, sink, hl, List.mem_of_getElem? hsink, hl'⟩
  refine ⟨⟨h.transport.apart, h.transport.index, ?_⟩, h.succeed_tenures, ?_, ?_⟩
  · intro place l' hl'
    obtain ⟨l, sink, hl, -, rfl⟩ := hnew place l' hl'
    exact h.transport.carries place l hl
  · intro place l' hl'
    obtain ⟨l, sink, hl, hsink, rfl⟩ := hnew place l' hl'
    -- the new consumer counts from 0, the old one counts among the earlier ones
    have htaken : taken place = Tenure.passed ((k.succeededBy lanes).earlier place) :=
      h.passed_tenures hl
    refine ⟨htaken, Lane.new l.ring sink, rfl, Sink.received_of_isFresh hfresh hsink,
      .still ?_ rfl rfl⟩
    rw [← htaken]
    exact h.transport.carries place l hl
  · intro r hr
    simp only [Succession.succeededBy, List.mem_append, List.mem_singleton] at hr ⊢
    rw [length_of_attach hattach]
    rcases hr with hold | rfl
    · exact h.full r hold
    · rfl

/-- Every consumer has a tenure at every lane. -/
theorem length_tenures (h : k.Sound sent taken) {place : Nat} {l : Lane g}
    (hl : k.transport.lanes[place]? = some l) :
    (k.tenures place).length = k.retired.length + 1 := by
  have hplace : place < k.transport.lanes.length := (List.getElem?_eq_some_iff.mp hl).1
  have hall : ∀ r ∈ k.retired ++ [k.current], (r.tenure? place).isSome = true := by
    intro r hr
    have hlength : r.lanes.length = k.transport.lanes.length := by
      rcases List.mem_append.mp hr with hold | hlast
      · exact h.full r hold
      · rw [List.mem_singleton.mp hlast, current]
    simpa [Reign.tenure?, hlength] using hplace
  rw [tenures, List.filterMap_length_eq_length.mpr hall, List.length_append,
    List.length_singleton]

/-- A proper step keeps the consumers and the rings together. -/
theorem next (h : k.Sound sent taken) {s : Step g} (hs : s.isProper = true) :
    ∃ taken', (k.next s).Sound (fun place => sent place ++ k.sentBy place s) taken' := by
  cases s with
  | step s => exact h.step hs
  | replace sinks =>
    refine ⟨taken, ?_⟩
    simp only [sentBy, List.append_nil, Succession.next]
    split
    · exact h
    · next lanes hattach => exact h.succeededBy hs hattach

theorem after (h : k.Sound sent taken) {steps : List (Step g)}
    (hproper : ∀ s ∈ steps, s.isProper = true) :
    ∃ taken', (k.after steps).Sound (fun place => sent place ++ k.sent place steps) taken' := by
  induction steps generalizing k sent taken with
  | nil => exact ⟨taken, by simpa [Succession.after, Succession.sent, along] using h⟩
  | cons s rest ih =>
    obtain ⟨hs, hrest⟩ := List.forall_mem_cons.mp hproper
    obtain ⟨taken', hnext⟩ := h.next hs
    obtain ⟨taken'', hafter⟩ := ih hnext hrest
    refine ⟨taken'', ?_⟩
    simpa [Succession.after, Succession.sent, along] using hafter

end Sound

/-- The succession of a new transport. -/
theorem sound_start {grid : Grid} {rings : Nat} {sinks : List Sink}
    {producers : List (Core × UInt64)} {verbose shutdown : Bool} {t : Transport bits g}
    (hbuild : Transport.build bits g grid rings sinks producers verbose shutdown = .ok t)
    (hfresh : sinks.all Sink.isFresh = true) (hapart : t.Apart) :
    (start t).Sound (fun _ => []) (fun _ => 0) where
  transport := .ofBuild hbuild hapart
  earlier _ := trivial
  lane place l hl := by
    obtain ⟨sink, hsink, rfl⟩ := Transport.lane_of_build hbuild hl
    have hempty := Sink.received_of_isFresh hfresh (List.mem_of_getElem? hsink)
    exact ⟨rfl, Lane.new (Ring.empty g) sink, rfl, hempty, .still (.empty g) rfl rfl⟩
  full r hr := by cases hr

/-! ## All runs -/

/-- The packets sent to the ring at a place went to the sinks there, each of them once. -/
structure Delivers (k : Succession bits g) (place : Nat) (sent : List (Packet g)) : Prop where
  /-- Every consumer has a tenure. -/
  length_tenures : (k.tenures place).length = k.retired.length + 1
  passed_le : Tenure.passed (k.tenures place) ≤ sent.length
  delivered : Tenure.delivered (k.tenures place) =
    stream (sent.take (Tenure.passed (k.tenures place)))
  /-- The consumer index has passed as many packets as were moved. -/
  consumerIndex : ∃ l, k.transport.lanes[place]? = some l ∧
    l.ring.consumerIndex.toNat = Tenure.passed (k.tenures place) % 2 ^ 32
  /-- A sink whose last write did not fail holds nothing else. -/
  rest : ∀ r ∈ k.tenures place, r.failed = false → r.rest = []
  /-- A sink whose last write failed holds a proper part of the next packet, which the consumer
  left in the ring. -/
  cut : ∀ (i : Nat) (r : Tenure g), (k.tenures place)[i]? = some r → r.failed = true →
    ∃ packet, sent[Tenure.passed ((k.tenures place).take (i + 1))]? = some packet ∧
      r.rest <+: packet.toList ∧ r.rest.length < g.packetSize ∧
      Ring.hasData r.lane.ring.producerIndex r.lane.ring.consumerIndex = true ∧
      r.lane.ring.getSlot r.lane.ring.consumerIndex = packet

theorem Sound.delivers {k : Succession bits g} {sent : Nat → List (Packet g)} {taken : Nat → Nat}
    (h : k.Sound sent taken) {place : Nat} {l : Lane g}
    (hl : k.transport.lanes[place]? = some l) : k.Delivers place (sent place) := by
  have hsucceed := h.succeed_tenures place
  obtain ⟨hpassed, hdelivered⟩ := hsucceed.delivered_eq (Nat.zero_le _)
  rw [Nat.zero_add] at hpassed
  rw [List.drop_zero] at hdelivered
  refine ⟨h.length_tenures hl, hpassed, hdelivered, ⟨l, hl, ?_⟩, ?_, ?_⟩
  · rw [(h.transport.carries place l hl).consumerIndex, Nat.zero_add, UInt32.toNat_ofNat',
      h.passed_tenures hl]
  · intro r hr hok
    obtain ⟨i, hi⟩ := List.getElem?_of_mem hr
    exact (hsucceed.getElem? hi).rest hok
  · intro i r hr hfailed
    have hcontinues := hsucceed.getElem? hr
    -- the packet cut off is the one after all that were moved until then
    have hnext : 0 + Tenure.passed ((k.tenures place).take i) + r.lane.consumed
        = Tenure.passed ((k.tenures place).take (i + 1)) := by
      rw [List.take_add_one, hr, Tenure.passed_append, Nat.zero_add]
      rfl
    obtain ⟨hlt, hprefix, hshort⟩ := hcontinues.cut hfailed
    have hintact := hcontinues.intact hfailed
    rw [List.getElem?_eq_getElem hlt, Option.some.injEq] at hintact
    refine ⟨_, ?_, hprefix, hshort, hcontinues.waiting hfailed, hintact.symm⟩
    rw [← hnext]
    exact List.getElem?_eq_getElem hlt

/-- The law of succession. From empty rings, with no two producers at one ring, whatever the
parties do in whatever order, and however often a consumer fails or is replaced: for each core the
sinks of all consumers hold the packets the consumer index passed, each once and in order. -/
theorem delivers_once {grid : Grid} {rings : Nat} {sinks : List Sink}
    {producers : List (Core × UInt64)} {verbose shutdown : Bool} {t : Transport bits g}
    (hbuild : Transport.build bits g grid rings sinks producers verbose shutdown = .ok t)
    (hfresh : sinks.all Sink.isFresh = true) (hapart : t.Apart) {steps : List (Step g)}
    (hproper : ∀ s ∈ steps, s.isProper = true) {place : Nat} (hplace : place < grid.count) :
    ((start t).after steps).Delivers place ((start t).sent place steps) := by
  obtain ⟨taken, hsound⟩ := (sound_start hbuild hfresh hapart).after hproper
  have hlength : ((start t).after steps).transport.lanes.length = grid.count := by
    rw [length_lanes_after]
    exact Consumer.length_of_attach (Transport.parts_of_build hbuild).2
  obtain ⟨l, hl⟩ : ∃ l, ((start t).after steps).transport.lanes[place]? = some l :=
    ⟨_, List.getElem?_eq_getElem (by omega)⟩
  simpa using hsound.delivers hl

/-- A sink that takes 37 bytes and then nothing more. -/
def stubborn : Sink :=
  ⟨[⟨.takeAll, false⟩, ⟨.takeUpTo 5, false⟩, ⟨.takeUpTo 0, false⟩], none, []⟩

/-- A new transport of one core, with two slots and that sink. -/
def fragile : Transport 16 .pair :=
  { Transport.twoSlots with lanes := [.new (.empty _) stubborn] }

/-- The second packet is cut off, and a new consumer moves it whole. -/
def relay : List (Step .pair) :=
  [.step (.producer 0 .publishEvent), .step (.producer 0 .publishEvent), .step (.consumer .sweep),
    .step (.consumer .sweep), .step (.producer 0 .publishEvent), .replace [.accepting],
    .step (.consumer .sweep)]

theorem delivers_once_of_relay :
    Transport.build 16 .pair fragile.grid 1 [stubborn] [(⟨0, 0⟩, 0)] false false
      = .ok fragile ∧
    [stubborn].all Sink.isFresh = true ∧ fragile.Apart ∧ (∀ s ∈ relay, s.isProper = true) ∧
    0 < fragile.grid.count ∧
    ((start fragile).after relay).Delivers 0 ((start fragile).sent 0 relay) ∧
    ((start fragile).sent 0 relay).length = 3 ∧
    (((start fragile).after relay).tenures 0).map
        (fun r => (r.lane.consumed, r.rest.length, r.failed)) = [(1, 5, true), (1, 0, false)] := by
  have hbuild : Transport.build 16 .pair fragile.grid 1 [stubborn] [(⟨0, 0⟩, 0)]
      false false = .ok fragile := rfl
  have hfresh : [stubborn].all Sink.isFresh = true := by decide
  have hapart : fragile.Apart := by simp [Transport.Apart, fragile, Transport.twoSlots]
  have hproper : ∀ s ∈ relay, s.isProper = true := by
    simp [relay, Step.isProper, Transport.Step.isProper, Sink.isFresh, Sink.accepting,
      Sink.received]
  have hplace : 0 < fragile.grid.count := by decide
  exact ⟨hbuild, hfresh, hapart, hproper, hplace,
    delivers_once hbuild hfresh hapart hproper hplace, by decide +kernel, by decide +kernel⟩

end Succession

end TraceRing
